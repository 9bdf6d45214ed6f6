import SourcePreview.Proofs.Cache.FiniteMap
import SourcePreview.Proofs.Cache.Sweeping
import Mathlib.Data.List.Perm.Subperm

/-!
# How far the disk tier grows

An open tier counts its writes and sweeps after so many of them, so it goes beyond the wanted
number of entries by less than that many.  The count begins again with every opening, and nothing
in the directory remembers it.  So the directory may hold as many entries more for every time that
it was opened again.
-/

namespace SourcePreview

/-- After how many writes a tier is swept. -/
def DiskConfig.interval (config : DiskConfig) : Nat :=
  max config.cleanupEvery 1

theorem DiskConfig.interval_pos (config : DiskConfig) : 0 < config.interval :=
  Nat.lt_of_lt_of_le Nat.one_pos (Nat.le_max_right ..)

namespace DiskTier

open FileTree

variable {tier other : DiskTier} {tree changed : FileTree} {directory : Location}

/-- A listing is no longer than a list of keys among which all keys with entries are. -/
theorem IsListing.length_le
    {listing : List (Key × File)} (isListing : IsListing tree directory listing)
    (keys : List Key) (all : ∀ key, (tree.entryAt? directory key).isSome → key ∈ keys) :
    listing.length ≤ keys.length := by
  rw [← List.length_map Prod.fst]
  apply List.Subperm.length_le
  apply List.subperm_of_subset isListing.nodup
  intro key member
  exact all key (isListing.mem_keys_iff.mp member)

section Orderly

variable
    (orderly : tier.IsOrderly tree directory) (stillOrderly : other.IsOrderly changed directory)

include orderly stillOrderly

/-- A change that adds no entries makes the listing no longer. -/
theorem IsOrderly.length_listing_le_of_loses (loses : LosesEntries directory tree changed) :
    (other.listing changed directory).length ≤ (tier.listing tree directory).length := by
  refine
    (stillOrderly.isListing_listing.length_le
      ((tier.listing tree directory).map Prod.fst) ?_).trans_eq (List.length_map _)
  intro key isSome
  obtain ⟨bytes, entry⟩ := Option.isSome_iff_exists.mp isSome
  rw [orderly.isListing_listing.mem_keys_iff, loses.entryAt?_eq_some entry]
  rfl

/-- Storing makes the listing longer by one entry at most. -/
theorem IsOrderly.length_listing_le_of_store
    {key : Key} {styled : StyledText}
    (stores : tier.store tree key styled = (changed, .ok ())) :
    (other.listing changed directory).length ≤ (tier.listing tree directory).length + 1 := by
  refine
    (stillOrderly.isListing_listing.length_le
      (key :: (tier.listing tree directory).map Prod.fst) ?_).trans_eq
        (by rw [List.length_cons, List.length_map])
  intro shown isSome
  rw [(store_eq_ok orderly.located stores).2] at isSome
  split at isSome
  · next same => exact List.mem_cons.mpr (Or.inl same)
  · exact List.mem_cons_of_mem key (orderly.isListing_listing.mem_keys_iff.mpr isSome)

/-- After a sweep the listing is no longer than it should be. -/
theorem IsOrderly.length_listing_le_of_cleanup
    (isDirectory : tree.nodeAt tier.config.directory = .ok .directory)
    (sweeps : (tier.cleanup tree).1 = changed) :
    (other.listing changed directory).length ≤ tier.config.maxEntries := by
  obtain ⟨removed, kept, swept, split, isSwept, removes, ⟨fewEntries, _⟩, _⟩ :=
    orderly.cleanup_spec isDirectory
  rw [isSwept] at sweeps
  subst sweeps
  refine
    (stillOrderly.isListing_listing.length_le (kept.map Prod.fst) ?_).trans
      ((List.length_map _).trans_le fewEntries)
  intro key isSome
  rw [removes key] at isSome
  split at isSome
  · cases isSome
  · next notRemoved =>
      have member := orderly.isListing_listing.mem_keys_iff.mpr isSome
      rw [← ((byUse_perm _).map Prod.fst).mem_iff, ← split, List.map_append,
        List.mem_append] at member
      exact member.resolve_left notRemoved

end Orderly

/-- Whether an operation is one of a process that reads entries and leaves writing to the writer,
all processes having the same configuration. -/
def Operation.IsQueued (config : DiskConfig) : Operation → Prop
  | .set _ _ | .get _ | .stats | .wait _ => True
  | .reopen _ _ maxEntries maxBytes cleanupEvery =>
    DiskConfig.mk config.directory maxEntries maxBytes cleanupEvery = config
  | .store _ _ | .cleanup | .clear => False

/-- Whether an operation opens the directory again. -/
def Operation.reopens : Operation → Bool
  | .reopen _ _ _ _ _ => true
  | _ => false

namespace Session

/-- How many entries there may be after so many reopenings and so many writes that were not yet
followed by a sweep. -/
def allowance (config : DiskConfig) (reopenings writes : Nat) : Nat :=
  config.maxEntries + reopenings * (config.interval - 1) + writes

theorem le_allowance (config : DiskConfig) (reopenings writes : Nat) :
    config.maxEntries ≤ allowance config reopenings writes := by
  rw [allowance, Nat.add_assoc]
  exact Nat.le_add_right _ _

/-- One more reopening allows for all the writes that it makes the tier forget. -/
theorem allowance_le_succ
    {config : DiskConfig} {writes : Nat} (few : writes < config.interval)
    (reopenings later : Nat) :
    allowance config reopenings writes ≤ allowance config (reopenings + 1) later := by
  rw [allowance, allowance, Nat.succ_mul]
  omega

/-- Whether a directory that was opened again so many times holds no more entries than it may. -/
structure IsBounded
    (session : Session) (directory : Location) (config : DiskConfig) (reopenings : Nat) :
    Prop where
  current : session.IsCurrent directory
  sameConfig : session.tier.config = config
  writes : session.tier.writesSinceSweep < config.interval
  entries :
    (session.tier.listing session.tree directory).length ≤
      allowance config reopenings session.tier.writesSinceSweep

section Step

variable
    {session next : Session} {directory : Location} {config : DiskConfig} {reopenings : Nat}

/-- Counting a write sweeps away the entries beyond the bound, or leaves room for one more. -/
theorem isBounded_settled
    (current : session.IsCurrent directory) (sameConfig : session.tier.config = config)
    (entries :
      (session.tier.listing session.tree directory).length ≤
        allowance config reopenings (session.tier.writesSinceSweep + 1)) :
    session.settled.IsBounded directory config reopenings := by
  have settled := current.settled
  by_cases due : session.tier.config.interval ≤ session.tier.writesSinceSweep + 1
  · rw [Session.settled, settle_of_due due] at settled ⊢
    refine ⟨settled, sameConfig, config.interval_pos, ?_⟩
    have few :=
      current.mirrors.toIsOrderly.length_listing_le_of_cleanup settled.mirrors.toIsOrderly
        current.isDirectory rfl
    refine few.trans ?_
    rw [sameConfig]
    exact le_allowance config reopenings 0
  · rw [Session.settled, settle_of_not_due due] at settled ⊢
    rw [sameConfig] at due
    exact ⟨settled, sameConfig, Nat.lt_of_not_le due, entries⟩

variable (bounded : session.IsBounded directory config reopenings)

include bounded

/-- A change that adds no entries keeps to the bound. -/
theorem IsBounded.of_loses
    (current : next.IsCurrent directory) (sameTier : next.tier = session.tier)
    (loses : LosesEntries directory session.tree next.tree) :
    next.IsBounded directory config reopenings := by
  have fewer :=
    bounded.current.mirrors.toIsOrderly.length_listing_le_of_loses
      current.mirrors.toIsOrderly loses
  refine ⟨current, ?_, ?_, ?_⟩
  · rw [sameTier, bounded.sameConfig]
  · rw [sameTier]
    exact bounded.writes
  · rw [sameTier] at fewer ⊢
    exact fewer.trans bounded.entries

/-- A write adds one entry at most and is then counted. -/
theorem IsBounded.set (key : Key) (styled : StyledText) :
    (session.after (.set key styled)).IsBounded directory config reopenings := by
  have sameTier := tier_after_store session key styled
  have stored := bounded.current.after_store key styled
  have isTree := tree_after_store session key styled
  rw [after_set]
  cases stores : session.tier.store session.tree key styled with
  | mk tree result =>
      rw [stores] at isTree
      cases result with
      | error failure =>
          rw [if_neg (by exact Bool.false_ne_true)]
          apply bounded.of_loses stored sameTier
          rw [isTree]
          exact (keepsEntries_of_store_eq_error stores directory).loses
      | ok _ =>
          rw [if_pos (by rfl)]
          have oneMore :=
            bounded.current.mirrors.toIsOrderly.length_listing_le_of_store
              (isTree ▸ stored.mirrors.toIsOrderly) stores
          apply isBounded_settled stored
          · rw [sameTier, bounded.sameConfig]
          · rw [isTree, sameTier]
            rw [sameTier] at oneMore
            exact oneMore.trans (Nat.succ_le_succ bounded.entries)

/-- Opening the directory again forgets how many writes there were since the last sweep. -/
theorem IsBounded.reopen
    {process named maxEntries maxBytes cleanupEvery : Nat}
    (queued :
      (Operation.reopen process named maxEntries maxBytes cleanupEvery).IsQueued config) :
    (session.after (.reopen process named maxEntries maxBytes cleanupEvery)).IsBounded directory
      config (reopenings + 1) := by
  have current := bounded.current.after (.reopen process named maxEntries maxBytes cleanupEvery)
  have wanted :
      DiskConfig.mk session.tier.config.directory maxEntries maxBytes cleanupEvery = config := by
    rw [bounded.sameConfig]
    exact queued
  have keeps := keepsEntries_openAt { session.tree with process, named } config directory
  have fewer :
      ((session.after (.reopen process named maxEntries maxBytes cleanupEvery)).tier.listing
          (session.after (.reopen process named maxEntries maxBytes cleanupEvery)).tree
          directory).length ≤
        (session.tier.listing session.tree directory).length := by
    apply bounded.current.mirrors.toIsOrderly.length_listing_le_of_loses
      current.mirrors.toIsOrderly
    simp only [after]
    rw [wanted]
    exact ⟨keeps.working, fun key => Or.inl (keeps.entryAt? key)⟩
  have isTier :
      (session.after (.reopen process named maxEntries maxBytes cleanupEvery)).tier =
        (openAt { session.tree with process, named } config).2.toOption.getD session.tier := by
    simp only [after]
    rw [wanted]
  obtain ⟨sameConfig, writes⟩ :
      let tier := (session.after (.reopen process named maxEntries maxBytes cleanupEvery)).tier
      tier.config = config ∧ tier.writesSinceSweep < config.interval := by
    dsimp only
    rw [isTier]
    cases opens : openAt { session.tree with process, named } config with
    | mk opened result =>
        cases result with
        | error failure => exact ⟨bounded.sameConfig, bounded.writes⟩
        | ok tier =>
            obtain rfl := eq_of_openAt opens
            exact ⟨rfl, config.interval_pos⟩
  refine ⟨current, sameConfig, writes, ?_⟩
  exact fewer.trans (bounded.entries.trans (allowance_le_succ bounded.writes reopenings _))

/-- An operation keeps to the bound, which grows only when the directory is opened again. -/
theorem IsBounded.after {operation : Operation} (queued : operation.IsQueued config) :
    (session.after operation).IsBounded directory config
      (reopenings + if operation.reopens then 1 else 0) := by
  have current := bounded.current.after operation
  cases operation with
  | set key styled => exact bounded.set key styled
  | get key =>
      apply bounded.of_loses current rfl
      exact losesEntries_get bounded.current.mirrors.located key
  | stats =>
      apply bounded.of_loses current rfl
      rw [Session.after, stats_fst]
      exact (keepsEntries_scan _ _ directory).loses
  | wait clock =>
      apply bounded.of_loses current rfl
      exact ⟨rfl, fun key => Or.inl rfl⟩
  | reopen process named maxEntries maxBytes cleanupEvery => exact bounded.reopen queued
  | store key styled => exact queued.elim
  | cleanup => exact queued.elim
  | clear => exact queued.elim

theorem IsBounded.run
    {operations : List Operation}
    (queued : ∀ operation ∈ operations, operation.IsQueued config) :
    (session.run operations).IsBounded directory config
      (reopenings + operations.countP Operation.reopens) := by
  induction operations generalizing session reopenings with
  | nil => exact bounded
  | cons operation operations ih =>
      rw [List.forall_mem_cons] at queued
      rw [List.countP_cons, Nat.add_comm (operations.countP _), ← Nat.add_assoc]
      exact ih (bounded.after queued.1) queued.2

/-- Where the bound is kept, it is kept by the number of entries that the tier shows. -/
theorem IsBounded.stats_le :
    ∃ stats,
      (session.tier.stats session.tree).2 = .ok stats ∧
        stats.entries ≤ config.maxEntries + (reopenings + 1) * (config.interval - 1) := by
  refine
    ⟨_, bounded.current.mirrors.toIsOrderly.stats_snd bounded.current.isDirectory,
      bounded.entries.trans ?_⟩
  exact allowance_le_succ bounded.writes reopenings 0

end Step

/-- However often a directory without entries is opened again, entries are read and the writer
writes some, the number of its entries exceeds the wanted one by less writes than it takes for a
sweep, times the number of openings. -/
theorem entries_le_run
    {tree : FileTree} {config : DiskConfig} {tier : DiskTier}
    (isDirectory : (openAt tree config).1.nodeAt config.directory = .ok .directory)
    (noEntries : ∀ key,
      tree.entryAt? (config.directory.locationFrom tree.working) key = none)
    (opens : (openAt tree config).2 = .ok tier)
    {operations : List Operation}
    (queued : ∀ operation ∈ operations, operation.IsQueued config) :
    ∃ stats,
      ((run ⟨tier, (openAt tree config).1, fun _ => none⟩ operations).tier.stats
          (run ⟨tier, (openAt tree config).1, fun _ => none⟩ operations).tree).2 = .ok stats ∧
        stats.entries ≤
          config.maxEntries +
            (operations.countP Operation.reopens + 1) * (config.interval - 1) := by
  have current := isCurrent_of_isDirectory_openAt isDirectory noEntries opens
  have pair : openAt tree config = ((openAt tree config).1, .ok tier) := by
    rw [← opens]
  obtain rfl := eq_of_openAt pair
  have nothing :
      ((DiskTier.mk config 0).listing (openAt tree config).1
        (config.directory.locationFrom tree.working)).length ≤ 0 := by
    apply current.mirrors.toIsOrderly.isListing_listing.length_le []
    intro key isSome
    rw [(keepsEntries_openAt tree config _).entryAt?, noEntries] at isSome
    cases isSome
  have bounded :
      IsBounded ⟨⟨config, 0⟩, (openAt tree config).1, fun _ => none⟩
        (config.directory.locationFrom tree.working) config 0 :=
    ⟨current, rfl, config.interval_pos, nothing.trans (Nat.zero_le _)⟩
  have ends := (bounded.run queued).stats_le
  rw [Nat.zero_add] at ends
  exact ends

/-- Four processes that write one entry each, into a directory for two entries that is to be swept
after every second write. -/
def sampleVisits : List Operation :=
  [.set (sampleKey 0) (sampleStyled "1"), .reopen 1 0 2 10000 2,
    .set (sampleKey 1) (sampleStyled "2"), .reopen 2 0 2 10000 2,
    .set (sampleKey 2) (sampleStyled "3"), .reopen 3 0 2 10000 2,
    .set (sampleKey 3) (sampleStyled "4")]

theorem isQueued_of_mem_sampleVisits :
    ∀ operation ∈ sampleVisits, operation.IsQueued sampleTier.config := by
  simp [sampleVisits, Operation.IsQueued, sampleTier]

/-- None of the four processes sweeps the directory, so all entries stay. -/
theorem stats_run_sampleVisits :
    ((run ⟨sampleTier, (openAt sampleTree sampleTier.config).1, fun _ => none⟩
          sampleVisits).tier.stats
        (run ⟨sampleTier, (openAt sampleTree sampleTier.config).1, fun _ => none⟩
          sampleVisits).tree).2.toOption.map Stats.entries =
      some 4 := by
  decide +kernel

/-- In the sample directory there are no more entries than four openings allow for. -/
theorem entries_le_run_sample :
    ∃ stats,
      ((run ⟨sampleTier, (openAt sampleTree sampleTier.config).1, fun _ => none⟩
            sampleVisits).tier.stats
          (run ⟨sampleTier, (openAt sampleTree sampleTier.config).1, fun _ => none⟩
            sampleVisits).tree).2 =
          .ok stats ∧
        stats.entries ≤ 2 + 4 * 1 :=
  entries_le_run nodeAt_openAt_sampleTree entryAt?_sampleTree openAt_sampleTree
    isQueued_of_mem_sampleVisits

/-- The number of entries exceeds the wanted one by more than the writes that it takes for a sweep
when the directory is opened again before it comes to one. -/
theorem exceeds_interval_of_reopened :
    ¬∀ (tree : FileTree) (config : DiskConfig) (tier : DiskTier),
      (openAt tree config).1.nodeAt config.directory = .ok .directory →
      (∀ key, tree.entryAt? (config.directory.locationFrom tree.working) key = none) →
      (openAt tree config).2 = .ok tier →
      ∀ operations : List Operation, (∀ operation ∈ operations, operation.IsQueued config) →
        ∃ stats,
          ((run ⟨tier, (openAt tree config).1, fun _ => none⟩ operations).tier.stats
              (run ⟨tier, (openAt tree config).1, fun _ => none⟩ operations).tree).2 =
              .ok stats ∧
            stats.entries ≤ config.maxEntries + (config.interval - 1) := by
  intro bounds
  obtain ⟨stats, isStats, few⟩ :=
    bounds sampleTree sampleTier.config sampleTier nodeAt_openAt_sampleTree entryAt?_sampleTree
      openAt_sampleTree sampleVisits isQueued_of_mem_sampleVisits
  have entries := stats_run_sampleVisits
  rw [isStats] at entries
  have isFour : stats.entries = 4 := Option.some.inj entries
  rw [isFour] at few
  exact absurd few (by decide)

end Session

end DiskTier

end SourcePreview
