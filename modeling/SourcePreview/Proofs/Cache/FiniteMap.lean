import SourcePreview.Proofs.Cache.Storing
import Mathlib.Logic.Function.Basic

/-!
# The disk tier as a finite map

A tier that nothing else touches behaves like a finite map from keys to previews.  What is found
under a key is the preview that was last written there, exactly as long as its file is present,
and files go away only when the tier is swept or cleared.  A file that cannot be read back counts
as none and is removed by the first look at it.
-/

namespace SourcePreview.DiskTier

open FileTree

/-- Whether the entries on disk are those of the previews that were written last, in order. -/
structure Mirrors
    (tier : DiskTier) (tree : FileTree) (directory : Location)
    (latest : Key → Option StyledText) : Prop extends IsOrderly tier tree directory where
  entry : ∀ {key bytes}, tree.entryAt? directory key = some bytes →
    ∃ styled, latest key = some styled ∧ bytes = Entry.encode styled

namespace Mirrors

variable
    {tier : DiskTier} {tree : FileTree} {directory : Location}
    {latest : Key → Option StyledText} (mirrors : tier.Mirrors tree directory latest)

include mirrors

/-- A change that keeps directories and adds no entries goes on mirroring. -/
theorem of_loses
    {after : FileTree} (edits : Edits tree after) (loses : LosesEntries directory tree after)
    {other : DiskTier} (same : other.config.directory = tier.config.directory) :
    other.Mirrors after directory latest := by
  have kept {key bytes} (entry : after.entryAt? directory key = some bytes) :
      tree.entryAt? directory key = some bytes :=
    loses.entryAt?_eq_some entry
  refine ⟨⟨?_, ?_, ?_⟩, fun entry => mirrors.entry (kept entry)⟩
  · rw [same, edits.working, mirrors.located]
  · exact fun key => edits.listsOnce _ (mirrors.listsOnce key)
  · intro key isSome
    obtain ⟨bytes, entry⟩ := Option.isSome_iff_exists.mp isSome
    have reaches := mirrors.reaches key (Option.isSome_iff_exists.mpr ⟨bytes, kept entry⟩)
    rw [Reaches, same]
    exact reaches.of_edits edits

/-- Storing that succeeds mirrors the new preview. -/
theorem store
    {key : Key} {styled : StyledText} {after : FileTree}
    (stores : tier.store tree key styled = (after, .ok ())) :
    tier.Mirrors after directory (Function.update latest key (some styled)) := by
  have edits := congrArg Prod.fst stores ▸ edits_store tier tree key styled
  have entries := (store_eq_ok mirrors.located stores).2
  refine ⟨⟨?_, ?_, ?_⟩, ?_⟩
  · rw [edits.working, mirrors.located]
  · exact fun other => edits.listsOnce _ (mirrors.listsOnce other)
  · intro other isSome
    rw [entries] at isSome
    split at isSome
    · next same =>
        rw [same]
        exact (reaches_of_store mirrors.located (by rw [stores]; rfl)).of_edits edits
    · exact (mirrors.reaches other isSome).of_edits edits
  · intro other bytes entry
    rw [entries] at entry
    split at entry
    · next same =>
        cases entry
        exact ⟨styled, by rw [same, Function.update_self], rfl⟩
    · next different =>
        rw [Function.update_of_ne different]
        exact mirrors.entry entry

/-- Counting a write goes on mirroring. -/
theorem settle : (tier.settle tree).1.Mirrors (tier.settle tree).2 directory latest :=
  mirrors.of_loses (edits_settle tier tree) (losesEntries_settle tier tree directory)
    (by rw [config_settle])

/-- A write that succeeds mirrors the new preview, whether or not it is followed by a sweep. -/
theorem set
    {key : Key} {styled : StyledText}
    (succeeds : (tier.store tree key styled).2.toBool = true) :
    (tier.set tree key styled).1.Mirrors (tier.set tree key styled).2 directory
      (Function.update latest key (some styled)) := by
  obtain ⟨stored, stores⟩ := exists_store_eq_ok succeeds
  have sets : tier.set tree key styled = tier.settle stored := by
    unfold DiskTier.set
    rw [stores]
  rw [sets]
  exact (mirrors.store stores).settle

/-- Clearing that succeeds leaves nothing to mirror. -/
theorem clear (isDirectory : tree.nodeAt tier.config.directory = .ok .directory) :
    tier.Mirrors (tier.clear tree).1 directory fun _ => none := by
  have cleared :=
    mirrors.of_loses (edits_clear tier tree) (losesEntries_clear tier tree directory) rfl
  obtain ⟨after, clears, left⟩ := mirrors.toIsOrderly.clear_spec isDirectory
  refine ⟨cleared.toIsOrderly, fun {key} _ entry => ?_⟩
  rw [clears, left] at entry
  cases entry

/-- An entry can be decoded if it is there and the preview that was written last can be read
back. -/
theorem hasEntry_iff {key : Key} {styled : StyledText} :
    tree.HasEntry directory key styled ↔
      (tree.entryAt? directory key).isSome ∧ latest key = some styled ∧
        styled.isWellFormed = true := by
  constructor
  · rintro ⟨bytes, entry, decodes⟩
    obtain ⟨written, isLatest, rfl⟩ := mirrors.entry entry
    obtain ⟨wellFormed, rfl⟩ := Entry.decode_encode_eq_ok_iff.mp decodes
    exact ⟨by rw [entry]; rfl, isLatest, wellFormed⟩
  · rintro ⟨isSome, isLatest, wellFormed⟩
    obtain ⟨bytes, entry⟩ := Option.isSome_iff_exists.mp isSome
    obtain ⟨written, same, rfl⟩ := mirrors.entry entry
    rw [isLatest] at same
    cases same
    exact ⟨_, entry, Entry.decode_encode_of_isWellFormed wellFormed⟩

/-- What is found is the preview that was written last, if its file is there and can be read
back. -/
theorem get_snd_eq_some_iff {key : Key} {styled : StyledText} :
    (tier.get tree key).2 = some styled ↔
      (tree.entryAt? directory key).isSome ∧ latest key = some styled ∧
        styled.isWellFormed = true := by
  rw [← mirrors.hasEntry_iff]
  constructor
  · intro found
    have finds : tier.get tree key = ((tier.get tree key).1, some styled) := by
      rw [← found]
    exact (get_eq_some mirrors.located finds).2
  · intro has
    obtain ⟨isSome, _⟩ := mirrors.hasEntry_iff.mp has
    obtain ⟨after, found⟩ := exists_get_eq_some (mirrors.reaches key isSome) has
    rw [found]

end Mirrors

/-- In a directory without entries there is nothing to mirror. -/
theorem mirrors_of_noEntries
    {tree : FileTree} {config : DiskConfig}
    (noEntries : ∀ key,
      tree.entryAt? (config.directory.locationFrom tree.working) key = none) :
    (DiskTier.mk config 0).Mirrors tree (config.directory.locationFrom tree.working)
      fun _ => none := by
  refine ⟨⟨rfl, fun key file present => ?_, fun key isSome => ?_⟩, fun {key} _ entry => ?_⟩
  · have entry := entryAt?_eq_some_iff.mpr ⟨file, present, rfl⟩
    rw [noEntries] at entry
    cases entry
  · rw [noEntries] at isSome
    cases isSome
  · rw [noEntries] at entry
    cases entry

/-- What can be done with a tier. -/
inductive Operation where
  /-- Writes an entry at once. -/
  | store (key : Key) (styled : StyledText)
  /-- Has the writer write an entry, and waits for it. -/
  | set (key : Key) (styled : StyledText)
  | get (key : Key)
  | stats
  | cleanup
  | clear
  /-- Opens the same directory again, as a process that has named so many temporary files, and with
  other bounds. -/
  | reopen (process named maxEntries maxBytes cleanupEvery : Nat)
  /-- Lets the clock go on. -/
  | wait (clock : Timestamp)

/-- The key that an operation is about. -/
def Operation.key? : Operation → Option Key
  | .store key _ | .set key _ | .get key => some key
  | _ => none

/-- Whether an operation writes a preview under a key. -/
def Operation.Writes (operation : Operation) (key : Key) (styled : StyledText) : Prop :=
  operation = .store key styled ∨ operation = .set key styled

/-- A tier in use. -/
structure Session where
  tier : DiskTier
  tree : FileTree
  /-- The preview that was last written under each key. -/
  latest : Key → Option StyledText

namespace Session

/-- The previews that were written last, once another one is to be written. -/
def latestAfter (session : Session) (key : Key) (styled : StyledText) :
    Key → Option StyledText :=
  if (session.tier.store session.tree key styled).2.toBool then
    Function.update session.latest key (some styled)
  else session.latest

/-- The session after an operation.  An operation that fails changes nothing that was written. -/
def after (session : Session) : Operation → Session
  | .store key styled =>
    { session with
      tree := (session.tier.store session.tree key styled).1
      latest := session.latestAfter key styled }
  | .set key styled =>
    let written := session.tier.set session.tree key styled
    ⟨written.1, written.2, session.latestAfter key styled⟩
  | .get key => { session with tree := (session.tier.get session.tree key).1 }
  | .stats => { session with tree := (session.tier.stats session.tree).1 }
  | .cleanup => { session with tree := (session.tier.cleanup session.tree).1 }
  | .clear => { session with tree := (session.tier.clear session.tree).1 }
  | .reopen process named maxEntries maxBytes cleanupEvery =>
    let opened :=
      openAt { session.tree with process, named }
        ⟨session.tier.config.directory, maxEntries, maxBytes, cleanupEvery⟩
    { session with tier := opened.2.toOption.getD session.tier, tree := opened.1 }
  | .wait clock => { session with tree := { session.tree with clock } }

/-- The session after some operations. -/
def run (session : Session) (operations : List Operation) : Session :=
  operations.foldl after session

/-- Whether there is an entry file of a key. -/
def Has (session : Session) (directory : Location) (key : Key) : Prop :=
  (session.tree.entryAt? directory key).isSome

/-- Whether an operation may remove entries of any key: it sweeps the tier, perhaps only because
enough was written, or it clears it. -/
def MayRemove (session : Session) : Operation → Prop
  | .set key styled =>
    (session.tier.store session.tree key styled).2.toBool = true ∧
      max session.tier.config.cleanupEvery 1 ≤ session.tier.writesSinceSweep + 1
  | .cleanup | .clear => True
  | _ => False

/-- Whether the disk is what was written, in a directory that is there. -/
structure IsCurrent (session : Session) (directory : Location) : Prop where
  mirrors : session.tier.Mirrors session.tree directory session.latest
  isDirectory : session.tree.nodeAt session.tier.config.directory = .ok .directory

/-- What an operation may do to the entry of a key. -/
inductive Change
    (session next : Session) (directory : Location) (operation : Operation) (key : Key) :
    Prop where
  | kept
    (entry : next.tree.entryAt? directory key = session.tree.entryAt? directory key)
    (latest : next.latest key = session.latest key)
  | written
    (styled : StyledText)
    (writes : operation.Writes key styled)
    (entry : next.tree.entryAt? directory key = some (Entry.encode styled))
    (latest : next.latest key = some styled)
  | removed (mayRemove : session.MayRemove operation)
    (entry : next.tree.entryAt? directory key = none)
  | discarded
    (looks : operation = .get key)
    (malformed : ∃ styled, session.latest key = some styled ∧ styled.isWellFormed = false)

/-- A tier that is opened again has the same directory, whether or not that succeeds. -/
theorem directory_getD_openAt
    (tree : FileTree) {config : DiskConfig} {tier : DiskTier}
    (same : config.directory = tier.config.directory) :
    ((openAt tree config).2.toOption.getD tier).config.directory = tier.config.directory := by
  cases opens : openAt tree config with
  | mk opened result =>
      cases result with
      | error failure => rfl
      | ok other =>
          rw [← same, ← config_of_openAt opens]
          rfl

/-- When enough writes were counted, the tier is swept and counts from the beginning. -/
theorem settle_of_due
    {tier : DiskTier} {tree : FileTree}
    (due : max tier.config.cleanupEvery 1 ≤ tier.writesSinceSweep + 1) :
    tier.settle tree = ({ tier with writesSinceSweep := 0 }, (tier.cleanup tree).1) := by
  rw [settle]
  exact if_pos due

/-- As long as too few writes were counted, counting one more leaves everything else as it is. -/
theorem settle_of_not_due
    {tier : DiskTier} {tree : FileTree}
    (notDue : ¬max tier.config.cleanupEvery 1 ≤ tier.writesSinceSweep + 1) :
    tier.settle tree = ({ tier with writesSinceSweep := tier.writesSinceSweep + 1 }, tree) := by
  rw [settle]
  exact if_neg notDue

theorem settle_snd_of_not_due
    {tier : DiskTier} {tree : FileTree}
    (notDue : ¬max tier.config.cleanupEvery 1 ≤ tier.writesSinceSweep + 1) :
    (tier.settle tree).2 = tree := by
  rw [settle_of_not_due notDue]

theorem Change.of_same
    {session next later : Session} {directory : Location} {operation : Operation} {key : Key}
    (change : Change session next directory operation key)
    (sameEntry : later.tree.entryAt? directory key = next.tree.entryAt? directory key)
    (sameLatest : later.latest key = next.latest key) :
    Change session later directory operation key := by
  cases change with
  | kept entry latest => exact .kept (sameEntry.trans entry) (sameLatest.trans latest)
  | written styled writes entry latest =>
      exact .written styled writes (sameEntry.trans entry) (sameLatest.trans latest)
  | removed mayRemove entry => exact .removed mayRemove (sameEntry.trans entry)
  | discarded looks malformed => exact .discarded looks malformed

theorem stats_fst (tier : DiskTier) (tree : FileTree) :
    (tier.stats tree).1 = (tier.scan tree).1 := by
  unfold stats
  split
  all_goals
    next scans => rw [scans]

theorem tier_after_store (session : Session) (key : Key) (styled : StyledText) :
    (session.after (.store key styled)).tier = session.tier := by
  simp only [after]

theorem tree_after_store (session : Session) (key : Key) (styled : StyledText) :
    (session.after (.store key styled)).tree =
      (session.tier.store session.tree key styled).1 := by
  simp only [after]

theorem latest_after_store (session : Session) (key : Key) (styled : StyledText) :
    (session.after (.store key styled)).latest = session.latestAfter key styled := by
  simp only [after]

/-- The session after a write was counted. -/
def settled (session : Session) : Session :=
  { session with
    tier := (session.tier.settle session.tree).1
    tree := (session.tier.settle session.tree).2 }

/-- Having the writer write an entry is storing it and then counting the write. -/
theorem after_set (session : Session) (key : Key) (styled : StyledText) :
    session.after (.set key styled) =
      if (session.tier.store session.tree key styled).2.toBool then
        (session.after (.store key styled)).settled
      else session.after (.store key styled) := by
  dsimp only [after, settled]
  unfold DiskTier.set
  cases session.tier.store session.tree key styled with
  | mk tree result =>
      cases result with
      | error failure => rfl
      | ok _ => rw [if_pos (by rfl)]

section Step

variable
    {session : Session} {directory : Location} (current : session.IsCurrent directory)

include current

theorem IsCurrent.of_loses
    {tree : FileTree} (edits : Edits session.tree tree)
    (loses : LosesEntries directory session.tree tree)
    {tier : DiskTier} (same : tier.config.directory = session.tier.config.directory) :
    IsCurrent ⟨tier, tree, session.latest⟩ directory :=
  ⟨current.mirrors.of_loses edits loses same,
    same ▸ edits.nodeAt_directory current.isDirectory⟩

theorem IsCurrent.settled : session.settled.IsCurrent directory :=
  ⟨current.mirrors.settle, by
    rw [Session.settled, config_settle]
    exact (edits_settle _ _).nodeAt_directory current.isDirectory⟩

theorem IsCurrent.after_store (key : Key) (styled : StyledText) :
    (session.after (.store key styled)).IsCurrent directory := by
  have edits := edits_store session.tier session.tree key styled
  rw [after, latestAfter]
  cases stores : session.tier.store session.tree key styled with
  | mk tree result =>
      rw [stores] at edits
      cases result with
      | ok _ =>
          exact ⟨current.mirrors.store stores, edits.nodeAt_directory current.isDirectory⟩
      | error failure =>
          exact current.of_loses edits (keepsEntries_of_store_eq_error stores directory).loses rfl

theorem IsCurrent.after (operation : Operation) :
    (session.after operation).IsCurrent directory := by
  have located := current.mirrors.located
  cases operation with
  | store key styled => exact current.after_store key styled
  | set key styled =>
      have current := current.after_store key styled
      rw [after_set]
      split
      · exact current.settled
      · exact current
  | get key =>
      exact current.of_loses (edits_get _ _ _) (losesEntries_get located key) rfl
  | stats =>
      refine current.of_loses ?_ ?_ rfl
      · rw [stats_fst]
        exact edits_scan _ _
      · rw [stats_fst]
        exact (keepsEntries_scan _ _ directory).loses
  | cleanup => exact current.of_loses (edits_cleanup _ _) (losesEntries_cleanup _ _ _) rfl
  | clear => exact current.of_loses (edits_clear _ _) (losesEntries_clear _ _ _) rfl
  | reopen process named maxEntries maxBytes cleanupEvery =>
      have renumbered : Edits session.tree { session.tree with process, named } :=
        ⟨rfl, fun _ isDirectory => isDirectory, fun _ once => once⟩
      have loses :=
        (keepsEntries_openAt { session.tree with process, named }
          ⟨session.tier.config.directory, maxEntries, maxBytes, cleanupEvery⟩ directory).loses
      exact
        current.of_loses (renumbered.trans (edits_openAt _ _))
          ⟨loses.working, loses.entryAt?⟩ (directory_getD_openAt _ rfl)
  | wait clock =>
      have waited : Edits session.tree { session.tree with clock } :=
        ⟨rfl, fun _ isDirectory => isDirectory, fun _ once => once⟩
      exact current.of_loses waited ⟨rfl, fun _ => Or.inl rfl⟩ rfl

theorem IsCurrent.run (operations : List Operation) :
    (session.run operations).IsCurrent directory := by
  induction operations generalizing session with
  | nil => exact current
  | cons operation operations ih => exact ih (current.after operation)

theorem IsCurrent.change_store
    (key other : Key) (styled : StyledText)
    {operation : Operation} (writes : operation.Writes key styled) :
    Change session (session.after (.store key styled)) directory operation other := by
  rw [Session.after, latestAfter]
  cases stores : session.tier.store session.tree key styled with
  | mk tree result =>
      cases result with
      | error failure =>
          exact .kept ((keepsEntries_of_store_eq_error stores directory).entryAt? other) rfl
      | ok _ =>
          have entries := (store_eq_ok current.mirrors.located stores).2 other
          split at entries
          · next same =>
              exact
                .written styled (same ▸ writes) entries
                  (by rw [same]; exact Function.update_self ..)
          · next different => exact .kept entries (Function.update_of_ne different ..)

/-- An operation keeps the entry of a key, writes it, sweeps it away, or finds that it cannot be
read back. -/
theorem IsCurrent.change_after (operation : Operation) (key : Key) :
    Change session (session.after operation) directory operation key := by
  have located := current.mirrors.located
  cases operation with
  | store written styled => exact current.change_store written key styled (Or.inl rfl)
  | set written styled =>
      have change := current.change_store written key styled (Or.inr rfl)
      rw [after_set]
      split
      · next stores =>
          have sameTier := tier_after_store session written styled
          generalize session.after (.store written styled) = stored at change sameTier
          rcases (losesEntries_settle stored.tier stored.tree directory).entryAt? key
            with same | gone
          · exact change.of_same same rfl
          · by_cases due : session.MayRemove (.set written styled)
            · exact .removed due gone
            · refine change.of_same (congrArg (entryAt? · directory key) ?_) rfl
              exact settle_snd_of_not_due fun isDue => due ⟨stores, sameTier ▸ isDue⟩
      · exact change
  | get looked =>
      cases found : session.tier.get session.tree looked with
      | mk tree result =>
          have isTree : (session.after (.get looked)).tree = tree := congrArg Prod.fst found
          cases result with
          | some styled =>
              refine .kept ?_ rfl
              rw [isTree]
              exact ((get_eq_some located found).1 directory).entryAt? key
          | none =>
              rcases eq_or_eq_erase_of_get located found with
                same | ⟨file, here, undecodable, erased⟩
              · exact .kept (by rw [isTree, same]) rfl
              by_cases same : key = looked
              · obtain ⟨styled, isLatest, written⟩ :=
                  current.mirrors.entry (entryAt?_eq_some_iff.mpr ⟨file, here, rfl⟩)
                refine .discarded (by rw [same]) ⟨styled, by rw [same, isLatest], ?_⟩
                by_contra wellFormed
                refine undecodable styled ?_
                rw [written]
                exact Entry.decode_encode_of_isWellFormed (by simpa using wellFormed)
              · refine .kept (entryAt?_congr ?_) rfl
                rw [isTree, erased, node?_erase _ _ (append_fileName_ne_nil directory key), if_neg]
                rw [append_fileName_inj]
                exact same
  | stats =>
      refine .kept ?_ rfl
      rw [Session.after, stats_fst]
      exact (keepsEntries_scan _ _ directory).entryAt? key
  | cleanup =>
      rcases (losesEntries_cleanup session.tier session.tree directory).entryAt? key
        with same | gone
      · exact .kept same rfl
      · exact .removed trivial gone
  | clear =>
      rcases (losesEntries_clear session.tier session.tree directory).entryAt? key
        with same | gone
      · exact .kept same rfl
      · exact .removed trivial gone
  | reopen process named maxEntries maxBytes cleanupEvery =>
      refine .kept ?_ rfl
      rw [Session.after]
      exact (keepsEntries_openAt { session.tree with process, named } _ directory).entryAt? key
  | wait clock => exact .kept rfl rfl

end Step

/-- The length of the entry of the preview that was last written under a key. -/
def entryLength (session : Session) (key : Key) : Nat :=
  match session.latest key with
  | some styled => (Entry.encode styled).length
  | none => 0

/-- Whether a tier behaves like a finite map: the operations find, write, count and remove what
they should, and nothing else happens to any key. -/
structure IsFiniteMap (session : Session) (directory : Location) : Prop where
  found_iff : ∀ key styled,
    (session.tier.get session.tree key).2 = some styled ↔
      session.Has directory key ∧ session.latest key = some styled ∧
        styled.isWellFormed = true
  latest : ∀ key, session.Has directory key → (session.latest key).isSome
  malformed : ∀ key styled,
    session.Has directory key → session.latest key = some styled →
      styled.isWellFormed = false →
        (session.tier.get session.tree key).2 = none ∧
          ¬(session.after (.get key)).Has directory key
  gone : ∀ operation key,
    session.Has directory key → ¬(session.after operation).Has directory key →
      session.MayRemove operation ∨
        operation = .get key ∧
          ∃ styled, session.latest key = some styled ∧ styled.isWellFormed = false
  others : ∀ operation key,
    operation.key? ≠ some key → ¬session.MayRemove operation →
      ((session.after operation).tier.get (session.after operation).tree key).2 =
        (session.tier.get session.tree key).2
  written : ∀ operation key styled,
    operation.Writes key styled → session.tier.HasRoom session.tree directory key →
      (session.after operation).latest key = some styled ∧
        (¬session.MayRemove operation → (session.after operation).Has directory key)
  counted : ∃ keys : List Key,
    keys.Nodup ∧ (∀ key, key ∈ keys ↔ session.Has directory key) ∧
      (session.tier.stats session.tree).2 =
        .ok ⟨keys.length, (keys.map session.entryLength).sum⟩ ∧
      (session.tier.clear session.tree).2 = .ok keys.length
  cleared : ∀ key, ¬(session.after .clear).Has directory key

section Map

variable
    {session : Session} {directory : Location} (current : session.IsCurrent directory)

include current

theorem IsCurrent.malformed
    {key : Key} {styled : StyledText} (has : session.Has directory key)
    (isLatest : session.latest key = some styled) (malformed : styled.isWellFormed = false) :
    (session.tier.get session.tree key).2 = none ∧
      ¬(session.after (.get key)).Has directory key := by
  obtain ⟨bytes, entry⟩ := Option.isSome_iff_exists.mp has
  obtain ⟨written, same, rfl⟩ := current.mirrors.entry entry
  rw [isLatest] at same
  cases same
  have undecodable : Entry.decode (Entry.encode styled) = .error .corrupt := by
    rw [Entry.decode_encode, malformed]
    rfl
  obtain ⟨after, misses, left⟩ :=
    current.mirrors.toIsOrderly.get_of_undecodable entry undecodable
  have isTree : (session.after (.get key)).tree = after := congrArg Prod.fst misses
  refine ⟨by rw [misses], ?_⟩
  rw [Has, isTree, left, if_pos rfl]
  simp

theorem IsCurrent.gone
    {operation : Operation} {key : Key} (has : session.Has directory key)
    (gone : ¬(session.after operation).Has directory key) :
    session.MayRemove operation ∨
      operation = .get key ∧
        ∃ styled, session.latest key = some styled ∧ styled.isWellFormed = false := by
  rw [Has] at gone
  cases current.change_after operation key with
  | kept entry latest =>
      rw [entry] at gone
      exact absurd has gone
  | written styled writes entry latest =>
      rw [entry] at gone
      exact absurd rfl gone
  | removed mayRemove entry => exact Or.inl mayRemove
  | discarded looks malformed => exact Or.inr ⟨looks, malformed⟩

theorem IsCurrent.others
    {operation : Operation} {key : Key} (other : operation.key? ≠ some key)
    (keeps : ¬session.MayRemove operation) :
    ((session.after operation).tier.get (session.after operation).tree key).2 =
      (session.tier.get session.tree key).2 := by
  have next := current.after operation
  cases current.change_after operation key with
  | kept entry latest =>
      refine Option.ext fun styled => ?_
      rw [next.mirrors.get_snd_eq_some_iff, current.mirrors.get_snd_eq_some_iff, entry, latest]
  | written styled writes entry latest =>
      rcases writes with rfl | rfl
      all_goals exact absurd rfl other
  | removed mayRemove entry => exact absurd mayRemove keeps
  | discarded looks malformed =>
      rw [looks] at other
      exact absurd rfl other

theorem IsCurrent.written
    {operation : Operation} {key : Key} {styled : StyledText}
    (writes : operation.Writes key styled)
    (room : session.tier.HasRoom session.tree directory key) :
    (session.after operation).latest key = some styled ∧
      (¬session.MayRemove operation → (session.after operation).Has directory key) := by
  obtain ⟨stored, stores⟩ :=
    exists_store_eq_ok_of_hasRoom current.mirrors.located current.isDirectory room styled
  have succeeds : (session.tier.store session.tree key styled).2.toBool = true := by
    rw [stores]
    rfl
  have isLatest : (session.after (.store key styled)).latest key = some styled := by
    rw [latest_after_store, latestAfter, if_pos succeeds, Function.update_self]
  have isThere : (session.after (.store key styled)).Has directory key := by
    rw [Has, tree_after_store, stores, (store_eq_ok current.mirrors.located stores).2,
      if_pos rfl]
    rfl
  rcases writes with rfl | rfl
  · exact ⟨isLatest, fun _ => isThere⟩
  · rw [after_set, if_pos succeeds]
    have sameTier := tier_after_store session key styled
    generalize session.after (.store key styled) = stored at isLatest isThere sameTier
    refine ⟨isLatest, fun keeps => ?_⟩
    rw [Has, Session.settled,
      settle_snd_of_not_due fun due => keeps ⟨succeeds, sameTier ▸ due⟩]
    exact isThere

theorem IsCurrent.counted :
    ∃ keys : List Key,
      keys.Nodup ∧ (∀ key, key ∈ keys ↔ session.Has directory key) ∧
        (session.tier.stats session.tree).2 =
          .ok ⟨keys.length, (keys.map session.entryLength).sum⟩ ∧
        (session.tier.clear session.tree).2 = .ok keys.length := by
  have orderly := current.mirrors.toIsOrderly
  have listing := orderly.isListing_listing
  refine
    ⟨(session.tier.listing session.tree directory).map Prod.fst, listing.nodup, fun key => ?_,
      ?_, ?_⟩
  · exact listing.mem_keys_iff
  · rw [orderly.stats_snd current.isDirectory, List.length_map, List.map_map]
    congr 3
    refine List.map_congr_left fun entry member => ?_
    obtain ⟨styled, isLatest, bytes⟩ :=
      current.mirrors.entry (entryAt?_eq_some_iff.mpr ⟨_, listing.mem_iff.mp member, rfl⟩)
    rw [Function.comp_apply, entryLength, isLatest]
    dsimp only
    rw [← bytes]
    simp [File.size, File.bytes]
  · obtain ⟨after, clears, _⟩ := orderly.clear_spec current.isDirectory
    rw [clears, List.length_map]

theorem IsCurrent.cleared (key : Key) : ¬(session.after .clear).Has directory key := by
  obtain ⟨after, clears, left⟩ :=
    current.mirrors.toIsOrderly.clear_spec current.isDirectory
  have isTree : (session.after .clear).tree = after := congrArg Prod.fst clears
  rw [Has, isTree, left]
  simp

end Map

theorem IsCurrent.isFiniteMap
    {session : Session} {directory : Location} (current : session.IsCurrent directory) :
    session.IsFiniteMap directory where
  found_iff _ _ := current.mirrors.get_snd_eq_some_iff
  latest key has := by
    obtain ⟨bytes, entry⟩ := Option.isSome_iff_exists.mp has
    obtain ⟨styled, isLatest, _⟩ := current.mirrors.entry entry
    rw [isLatest]
    rfl
  malformed _ _ := current.malformed
  gone _ _ := current.gone
  others _ _ := current.others
  written _ _ _ := current.written
  counted := current.counted
  cleared := current.cleared

/-- An opened tier without entries has nothing that was written, also if its directory was made
just now. -/
theorem isCurrent_of_isDirectory_openAt
    {tree : FileTree} {config : DiskConfig} {tier : DiskTier}
    (isDirectory : (openAt tree config).1.nodeAt config.directory = .ok .directory)
    (noEntries : ∀ key,
      tree.entryAt? (config.directory.locationFrom tree.working) key = none)
    (opens : (openAt tree config).2 = .ok tier) :
    IsCurrent ⟨tier, (openAt tree config).1, fun _ => none⟩
      (config.directory.locationFrom tree.working) := by
  have pair : openAt tree config = ((openAt tree config).1, .ok tier) := by
    rw [← opens]
  have sameDirectory := congrArg DiskConfig.directory (config_of_openAt pair)
  refine
    ⟨(mirrors_of_noEntries noEntries).of_loses (edits_openAt tree config)
      (keepsEntries_openAt tree config _).loses sameDirectory, ?_⟩
  rw [sameDirectory]
  exact isDirectory

/-- An opened tier without entries has nothing that was written. -/
theorem isCurrent_openAt
    {tree : FileTree} {config : DiskConfig} {tier : DiskTier}
    (isDirectory : tree.nodeAt config.directory = .ok .directory)
    (noEntries : ∀ key,
      tree.entryAt? (config.directory.locationFrom tree.working) key = none)
    (opens : (openAt tree config).2 = .ok tier) :
    IsCurrent ⟨tier, (openAt tree config).1, fun _ => none⟩
      (config.directory.locationFrom tree.working) :=
  isCurrent_of_isDirectory_openAt ((edits_openAt tree config).nodeAt_directory isDirectory)
    noEntries opens

/-- At every point of every use, a tier that was opened in a directory without entries, and that
nothing else touches, behaves like a finite map. -/
theorem isFiniteMap_run
    {tree : FileTree} {config : DiskConfig} {tier : DiskTier}
    (isDirectory : tree.nodeAt config.directory = .ok .directory)
    (noEntries : ∀ key,
      tree.entryAt? (config.directory.locationFrom tree.working) key = none)
    (opens : (openAt tree config).2 = .ok tier) (operations : List Operation) :
    (run ⟨tier, (openAt tree config).1, fun _ => none⟩ operations).IsFiniteMap
      (config.directory.locationFrom tree.working) :=
  ((isCurrent_openAt isDirectory noEntries opens).run operations).isFiniteMap

/-- A directory with nothing in it. -/
def sampleTree : FileTree :=
  (FileTree.empty ⟨0⟩).put [Text.encode "c".toList] .directory

/-- A tier of two entries in that directory. -/
def sampleTier : DiskTier :=
  ⟨⟨.ofString "c", 2, 10000, 2⟩, 0⟩

theorem openAt_sampleTree : (openAt sampleTree sampleTier.config).2 = .ok sampleTier := by
  decide +kernel

theorem nodeAt_openAt_sampleTree :
    (openAt sampleTree sampleTier.config).1.nodeAt sampleTier.config.directory =
      .ok .directory := by
  decide +kernel

/-- A key of equal bytes. -/
def sampleKey (byte : UInt8) : Key :=
  ⟨List.replicate 32 byte, by simp⟩

/-- A preview of a text. -/
def sampleStyled (text : String) : StyledText :=
  .highlighted .json text [] .standard

/-- There is no entry in the sample directory. -/
theorem entryAt?_sampleTree (key : Key) :
    sampleTree.entryAt? (sampleTier.config.directory.locationFrom sampleTree.working) key =
      none := by
  have located :
      sampleTier.config.directory.locationFrom sampleTree.working =
        [Text.encode "c".toList] := by
    decide +kernel
  refine entryAt?_eq_none ?_
  rw [located, sampleTree, node?_put_of_ne _ _ (by simp)]
  exact if_neg (append_fileName_ne_nil _ key)

/-- In the sample tier the last of three writes is found, in place of the first one. -/
theorem isFiniteMap_run_sample :
    ∃ session,
      session =
          run ⟨sampleTier, (openAt sampleTree sampleTier.config).1, fun _ => none⟩
            [.store (sampleKey 0) (sampleStyled "1"), .set (sampleKey 1) (sampleStyled "2"),
              .store (sampleKey 0) (sampleStyled "3")] ∧
        session.IsFiniteMap
          (sampleTier.config.directory.locationFrom sampleTree.working) ∧
        (session.tier.get session.tree (sampleKey 0)).2 = some (sampleStyled "3") ∧
        (session.tier.get session.tree (sampleKey 1)).2 = some (sampleStyled "2") :=
  ⟨_, rfl, isFiniteMap_run rfl entryAt?_sampleTree openAt_sampleTree _,
    by decide +kernel⟩

end Session

end SourcePreview.DiskTier
