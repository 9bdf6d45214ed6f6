import SourcePreview.Proofs.Cache.FewestRemovals
import SourcePreview.Proofs.Cache.Growth

/-!
# When the disk tier is swept

An open tier counts the writes that its writer was given and that succeeded.  With every so many of
them it is swept right after the write, and otherwise it is not swept, whatever happens to its
directory in between.  So there are always fewer of these writes between two sweeps.  After a sweep
the directory is within both bounds, unless its path is empty, so that the writer can write its
files but not list them.
-/

namespace SourcePreview

namespace DiskConfig

variable {config : DiskConfig} {count : Nat}

/-- Counting on from what is left of a count leads to the interval when the interval divides the
next count. -/
theorem interval_le_iff :
    config.interval ≤ count % config.interval + 1 ↔ config.interval ∣ count + 1 := by
  have small := Nat.mod_lt count config.interval_pos
  rw [Nat.dvd_iff_mod_eq_zero, ← Nat.mod_add_mod]
  constructor
  · intro reached
    have whole : count % config.interval + 1 = config.interval :=
      Nat.le_antisymm small reached
    rw [whole, Nat.mod_self]
  · intro divides
    by_contra notReached
    rw [Nat.mod_eq_of_lt (Nat.lt_of_not_le notReached)] at divides
    cases divides

/-- Otherwise one more is left of the next count. -/
theorem mod_interval_of_not_dvd (notTurn : ¬config.interval ∣ count + 1) :
    (count + 1) % config.interval = count % config.interval + 1 := by
  rw [← interval_le_iff, Nat.not_le] at notTurn
  rw [← Nat.mod_add_mod, Nat.mod_eq_of_lt notTurn]

end DiskConfig

namespace DiskTier

open FileTree

/-- Whether the directory of a tier is there and lists every entry once. -/
structure IsListable (tier : DiskTier) (tree : FileTree) : Prop where
  isDirectory : tree.nodeAt tier.config.directory = .ok .directory
  listsOnce : ∀ key : Key, tree.ListsOnce (tier.namedLocation tree key.name)

theorem IsListable.of_edits
    {tier other : DiskTier} {tree after : FileTree}
    (listable : tier.IsListable tree) (sameConfig : other.config = tier.config)
    (edits : Edits tree after) :
    other.IsListable after where
  isDirectory := by
    rw [sameConfig]
    exact edits.nodeAt_directory listable.isDirectory
  listsOnce key := by
    rw [namedLocation, sameConfig, edits.working]
    exact edits.listsOnce _ (listable.listsOnce key)

/-- What can happen while a tier is open. -/
inductive Happening where
  /-- The writer is given an entry, and it is waited for. -/
  | set (key : Key) (styled : StyledText)
  /-- An entry is written at once. -/
  | store (key : Key) (styled : StyledText)
  | get (key : Key)
  /-- Others change files, and time goes by. -/
  | others (change : FileTree → FileTree) (edits : ∀ tree, Edits tree (change tree))

/-- An open tier and the files around it. -/
structure Moment where
  tier : DiskTier
  tree : FileTree

namespace Moment

/-- What has become of a tier after something has happened. -/
def after (moment : Moment) : Happening → Moment
  | .set key styled =>
    let written := moment.tier.set moment.tree key styled
    ⟨written.1, written.2⟩
  | .store key styled => { moment with tree := (moment.tier.store moment.tree key styled).1 }
  | .get key => { moment with tree := (moment.tier.get moment.tree key).1 }
  | .others change _ => { moment with tree := change moment.tree }

/-- What has become of a tier after some things have happened. -/
def run (moment : Moment) (happenings : List Happening) : Moment :=
  happenings.foldl after moment

/-- The tree after something has happened, if nothing is swept. -/
def unswept (moment : Moment) : Happening → FileTree
  | .set key styled | .store key styled => (moment.tier.store moment.tree key styled).1
  | .get key => (moment.tier.get moment.tree key).1
  | .others change _ => change moment.tree

/-- Whether something is a write by the writer that succeeds. -/
def isWrite (moment : Moment) : Happening → Bool
  | .set key styled => (moment.tier.store moment.tree key styled).2.toBool
  | _ => false

/-- How many of some things are writes by the writer that succeed. -/
def writes (moment : Moment) : List Happening → Nat
  | [] => 0
  | first :: others => (moment.isWrite first).toNat + (moment.after first).writes others

/-- Whether what happens after some other things is the last one of so many writes that a sweep is
due. -/
def IsTurn (start : Moment) (earlier : List Happening) (happening : Happening) : Prop :=
  (start.run earlier).isWrite happening = true ∧
    start.tier.config.interval ∣ start.writes earlier + 1

instance (start : Moment) (earlier : List Happening) (happening : Happening) :
    Decidable (start.IsTurn earlier happening) :=
  inferInstanceAs (Decidable (_ ∧ _))

/-- Whether a tier is swept right after every so many writes, and at no other time. -/
structure SweepsOnSchedule (start : Moment) : Prop where
  swept : ∀ earlier happening,
    (start.run (earlier ++ [happening])).tree =
      if start.IsTurn earlier happening then
        ((start.run earlier).tier.cleanup ((start.run earlier).unswept happening)).1
      else (start.run earlier).unswept happening
  /-- As long as it is not swept, there are fewer writes. -/
  between : ∀ earlier stretch,
    (∀ before happening later, stretch = before ++ happening :: later →
        ¬start.IsTurn (earlier ++ before) happening) →
      (start.run earlier).writes stretch ≤ start.tier.config.interval - 1

/-- Whether the entries in a directory are within both bounds right after every sweep. -/
def SweepsToBounds (start : Moment) (directory : Location) : Prop :=
  ∀ earlier happening, start.IsTurn earlier happening →
    ∃ kept,
      IsListing (start.run (earlier ++ [happening])).tree directory kept ∧
        IsWithin start.tier.config kept

variable {start moment : Moment} {count : Nat}

@[simp]
theorem run_append_singleton (earlier : List Happening) (happening : Happening) :
    start.run (earlier ++ [happening]) = (start.run earlier).after happening := by
  rw [run, run, List.foldl_append]
  rfl

theorem writes_append (earlier later : List Happening) :
    start.writes (earlier ++ later) = start.writes earlier + (start.run earlier).writes later := by
  induction earlier generalizing start with
  | nil => exact (Nat.zero_add _).symm
  | cons first earlier ih =>
      rw [List.cons_append, writes, writes, ih, Nat.add_assoc]
      rfl

/-- Only the writer's own writes count. -/
theorem exists_eq_set_of_isWrite
    {happening : Happening} (written : moment.isWrite happening = true) :
    ∃ key styled, happening = .set key styled := by
  cases happening with
  | set key styled => exact ⟨key, styled, rfl⟩
  | store key styled => cases written
  | get key => cases written
  | others change edits => cases written

/-- What is no write by the writer, or fails, changes the files alone. -/
theorem after_of_not_isWrite
    {happening : Happening} (noWrite : moment.isWrite happening = false) :
    moment.after happening = ⟨moment.tier, moment.unswept happening⟩ := by
  cases happening with
  | set key styled =>
      simp only [isWrite] at noWrite
      simp only [after, unswept, DiskTier.set]
      cases stores : moment.tier.store moment.tree key styled with
      | mk tree result =>
          rw [stores] at noWrite
          cases result with
          | error failure => rfl
          | ok _ => cases noWrite
  | store key styled => simp only [after, unswept]
  | get key => simp only [after, unswept]
  | others change edits => simp only [after, unswept]

/-- A write that succeeds is counted. -/
theorem after_set_of_isWrite
    {key : Key} {styled : StyledText}
    (succeeds : moment.isWrite (.set key styled) = true) :
    moment.after (.set key styled) =
      ⟨(moment.tier.settle (moment.unswept (.set key styled))).1,
        (moment.tier.settle (moment.unswept (.set key styled))).2⟩ := by
  simp only [isWrite] at succeeds
  simp only [after, unswept, DiskTier.set]
  cases stores : moment.tier.store moment.tree key styled with
  | mk tree result =>
      rw [stores] at succeeds
      cases result with
      | error failure => cases succeeds
      | ok _ => rfl

/-- Whether a tier has the configuration that it was opened with and remembers what is left of the
count of its writes. -/
structure Counts (moment : Moment) (config : DiskConfig) (count : Nat) : Prop where
  config_eq : moment.tier.config = config
  writes_eq : moment.tier.writesSinceSweep = count % config.interval

section Counts

variable {config : DiskConfig} (counts : moment.Counts config count)

include counts

/-- A write by the writer that succeeds is followed by a sweep just if it is the last one of as many
as it takes, and is counted in both cases. -/
theorem Counts.after_set
    {key : Key} {styled : StyledText}
    (succeeds : moment.isWrite (.set key styled) = true) :
    (moment.after (.set key styled)).Counts config (count + 1) ∧
      (moment.after (.set key styled)).tree =
        if config.interval ∣ count + 1 then
          (moment.tier.cleanup (moment.unswept (.set key styled))).1
        else moment.unswept (.set key styled) := by
  have dueIff :
      max moment.tier.config.cleanupEvery 1 ≤ moment.tier.writesSinceSweep + 1 ↔
        config.interval ∣ count + 1 := by
    rw [counts.config_eq, counts.writes_eq]
    exact DiskConfig.interval_le_iff
  rw [after_set_of_isWrite succeeds]
  by_cases turn : config.interval ∣ count + 1
  · rw [if_pos turn, Session.settle_of_due (dueIff.mpr turn)]
    exact ⟨⟨counts.config_eq, (Nat.mod_eq_zero_of_dvd turn).symm⟩, rfl⟩
  · rw [if_neg turn, Session.settle_of_not_due fun due => turn (dueIff.mp due)]
    have oneMore : moment.tier.writesSinceSweep + 1 = (count + 1) % config.interval := by
      rw [DiskConfig.mod_interval_of_not_dvd turn, counts.writes_eq]
    dsimp only
    exact ⟨⟨counts.config_eq, oneMore⟩, rfl⟩

/-- Whatever happens, a tier is swept just if it was the last one of so many writes, and the writes
are counted. -/
theorem Counts.after (happening : Happening) :
    (moment.after happening).Counts config (count + (moment.isWrite happening).toNat) ∧
      (moment.after happening).tree =
        if moment.isWrite happening = true ∧ config.interval ∣ count + 1 then
          (moment.tier.cleanup (moment.unswept happening)).1
        else moment.unswept happening := by
  cases written : moment.isWrite happening with
  | false =>
      have noTurn : ¬(false = true ∧ config.interval ∣ count + 1) := fun turn => nomatch turn.1
      rw [if_neg noTurn, after_of_not_isWrite written]
      exact ⟨⟨counts.config_eq, counts.writes_eq⟩, rfl⟩
  | true =>
      obtain ⟨key, styled, rfl⟩ := exists_eq_set_of_isWrite written
      simpa only [true_and, Bool.toNat_true] using counts.after_set written

theorem Counts.run (happenings : List Happening) :
    (moment.run happenings).Counts config (count + moment.writes happenings) := by
  induction happenings generalizing moment count with
  | nil => exact counts
  | cons first others ih =>
      rw [writes, ← Nat.add_assoc]
      exact ih (counts.after first).1

end Counts

section Opened

variable {config : DiskConfig} (counts : start.Counts config 0)

include counts

/-- Without a sweep the count stays below the interval. -/
theorem Counts.writes_lt
    {earlier stretch : List Happening}
    (noTurn : ∀ before happening later, stretch = before ++ happening :: later →
      ¬start.IsTurn (earlier ++ before) happening) :
    start.writes earlier % config.interval + (start.run earlier).writes stretch <
      config.interval := by
  induction stretch generalizing earlier with
  | nil => exact Nat.mod_lt _ config.interval_pos
  | cons first others ih =>
      have notFirst : ¬start.IsTurn earlier first := by
        simpa using noTurn [] first others rfl
      have noLaterTurn (before : List Happening) (happening : Happening)
          (later : List Happening) (split : others = before ++ happening :: later) :
          ¬start.IsTurn (earlier ++ [first] ++ before) happening := by
        have notHere := noTurn (first :: before) happening later (by rw [split]; rfl)
        rwa [← List.append_cons]
      have rest := ih noLaterTurn
      rw [writes_append, run_append_singleton] at rest
      rw [writes]
      cases written : (start.run earlier).isWrite first with
      | false =>
          simpa [writes, written] using rest
      | true =>
          have notDue : ¬config.interval ∣ start.writes earlier + 1 := fun divides =>
            notFirst ⟨written, counts.config_eq ▸ divides⟩
          simp only [writes, written, Bool.toNat_true, Nat.add_zero] at rest ⊢
          rw [DiskConfig.mod_interval_of_not_dvd notDue] at rest
          omega

/-- A tier that begins to count is swept with every so many writes. -/
theorem Counts.sweepsOnSchedule : start.SweepsOnSchedule where
  swept earlier happening := by
    have step := ((counts.run earlier).after happening).2
    rw [Nat.zero_add] at step
    rw [run_append_singleton, step]
    refine if_congr ?_ rfl rfl
    rw [IsTurn, counts.config_eq]
  between earlier stretch noTurn := by
    have few := counts.writes_lt noTurn
    rw [counts.config_eq]
    omega

end Opened

section Bounds

theorem edits_unswept (moment : Moment) (happening : Happening) :
    Edits moment.tree (moment.unswept happening) := by
  cases happening with
  | set key styled =>
      rw [unswept]
      exact edits_store moment.tier moment.tree key styled
  | store key styled =>
      rw [unswept]
      exact edits_store moment.tier moment.tree key styled
  | get key =>
      rw [unswept]
      exact edits_get moment.tier moment.tree key
  | others change edits =>
      rw [unswept]
      exact edits moment.tree

theorem edits_after (moment : Moment) (happening : Happening) :
    Edits moment.tree (moment.after happening).tree := by
  have edits := moment.edits_unswept happening
  cases written : moment.isWrite happening with
  | false =>
      rw [after_of_not_isWrite written]
      exact edits
  | true =>
      obtain ⟨key, styled, rfl⟩ := exists_eq_set_of_isWrite written
      rw [after_set_of_isWrite written]
      exact edits.trans (edits_settle _ _)

theorem edits_run (start : Moment) (happenings : List Happening) :
    Edits start.tree (start.run happenings).tree := by
  induction happenings generalizing start with
  | nil => exact Edits.refl start.tree
  | cons first others ih => exact (start.edits_after first).trans (ih (start.after first))

/-- What a write that succeeds leaves can be swept to its bounds. -/
theorem exists_isSweep_of_isWrite
    {happening : Happening} (listable : moment.tier.IsListable moment.tree)
    (written : moment.isWrite happening = true) :
    ∃ removed kept after,
      moment.tier.IsSweep (moment.tier.config.directory.locationFrom moment.tree.working)
        (moment.unswept happening) after removed kept := by
  obtain ⟨key, styled, rfl⟩ := exists_eq_set_of_isWrite written
  rw [isWrite] at written
  have edits := moment.edits_unswept (.set key styled)
  have leads := reaches_iff_leads.mp (reaches_of_store rfl written)
  have stays := listable.of_edits rfl edits
  -- All entries have names of the same length, so their paths are short if one of them is.
  have orderly :=
    isOrderly_of_nodeAt stays.isDirectory stays.listsOnce
      fun other _ _ => (length_child_name_le _ other key).trans leads.shortPath
  rw [edits.working] at orderly
  exact orderly.exists_isSweep stays.isDirectory

/-- A tier whose directory can be listed is within its bounds after every sweep. -/
theorem Counts.sweepsToBounds
    {config : DiskConfig} (counts : start.Counts config 0)
    (listable : start.tier.IsListable start.tree) :
    start.SweepsToBounds (start.tier.config.directory.locationFrom start.tree.working) := by
  intro earlier happening turn
  have edits := start.edits_run earlier
  have sameConfig : (start.run earlier).tier.config = start.tier.config :=
    (counts.run earlier).config_eq.trans counts.config_eq.symm
  obtain ⟨removed, kept, after, sweep⟩ :=
    exists_isSweep_of_isWrite (listable.of_edits sameConfig edits) turn.1
  have listed := sweep.isListed
  have within := sweep.within
  rw [sameConfig, edits.working] at listed
  rw [sameConfig] at within
  refine ⟨kept, ?_, within⟩
  rw [counts.sweepsOnSchedule.swept earlier happening, if_pos turn, sweep.result]
  exact listed

end Bounds

end Moment

/-- The directory of a tier that was opened is there, unless its path is empty. -/
theorem nodeAt_of_openAt
    {tree opened : FileTree} {config : DiskConfig} {tier : DiskTier}
    (nonempty : config.directory.bytes ≠ [])
    (opens : openAt tree config = (opened, .ok tier)) :
    opened.nodeAt config.directory = .ok .directory := by
  rw [openAt_eq] at opens
  split at opens
  · cases opens
  · next made creates =>
      have isDirectory := nodeAt_of_createDirectories nonempty creates
      have edits : Edits made (probe (.plain made) config.directory).1.tree :=
        related_probe Edits Edits.trans edits_countName (fun _ writes => edits_of_writeFile writes)
          (fun tree _ _ => edits_discard tree _) made
      split at opens
      · cases opens
      · next probes =>
          cases opens
          rw [probes] at edits
          exact edits.nodeAt_directory isDirectory

/-- A tier that was opened is swept right after every so many writes that its writer was given and
that succeeded, and at no other time.  If its path is not empty, its entries are within both bounds
after every sweep. -/
theorem sweepsOnSchedule_and_sweepsToBounds
    {tree opened : FileTree} {config : DiskConfig} {tier : DiskTier}
    (listsOnce : ∀ key : Key,
      tree.ListsOnce (config.directory.locationFrom tree.working ++ [key.fileName]))
    (opens : openAt tree config = (opened, .ok tier)) :
    tier.config = config ∧
      Moment.SweepsOnSchedule ⟨tier, opened⟩ ∧
      (config.directory.bytes ≠ [] →
        Moment.SweepsToBounds ⟨tier, opened⟩ (config.directory.locationFrom tree.working)) := by
  obtain rfl := eq_of_openAt opens
  have edits : Edits tree opened := by
    have edits := edits_openAt tree config
    rwa [opens] at edits
  have counts : Moment.Counts ⟨⟨config, 0⟩, opened⟩ config 0 := ⟨rfl, (Nat.zero_mod _).symm⟩
  refine ⟨rfl, counts.sweepsOnSchedule, fun nonempty => ?_⟩
  have listable : IsListable ⟨config, 0⟩ opened := by
    refine ⟨nodeAt_of_openAt nonempty opens, fun key => ?_⟩
    rw [namedLocation, edits.working]
    exact edits.listsOnce _ (listsOnce key)
  have bounds := counts.sweepsToBounds listable
  rwa [edits.working] at bounds

/-- The sample tier is swept with every second write. -/
theorem sweepsOnSchedule_and_sweepsToBounds_sample :
    Moment.SweepsOnSchedule
        ⟨Session.sampleTier, (openAt Session.sampleTree Session.sampleTier.config).1⟩ ∧
      Moment.SweepsToBounds
        ⟨Session.sampleTier, (openAt Session.sampleTree Session.sampleTier.config).1⟩
        (Session.sampleTier.config.directory.locationFrom Session.sampleTree.working) := by
  have opens :
      openAt Session.sampleTree Session.sampleTier.config =
        ((openAt Session.sampleTree Session.sampleTier.config).1, .ok Session.sampleTier) :=
    Prod.ext rfl Session.openAt_sampleTree
  obtain ⟨-, schedule, bounds⟩ :=
    sweepsOnSchedule_and_sweepsToBounds
      (fun _ => listsOnce_of_nodup (by decide +kernel) _) opens
  exact ⟨schedule, bounds (by decide)⟩

/-- Where the path of the directory is empty, the writer writes an entry but cannot list the
directory, so that the sweep leaves two entries although none may stay. -/
theorem exceeds_bounds_of_empty_path :
    ¬∀ (tree opened : FileTree) (config : DiskConfig) (tier : DiskTier),
      (∀ key : Key,
          tree.ListsOnce (config.directory.locationFrom tree.working ++ [key.fileName])) →
        openAt tree config = (opened, .ok tier) →
          Moment.SweepsOnSchedule ⟨tier, opened⟩ ∧
            Moment.SweepsToBounds ⟨tier, opened⟩
              (config.directory.locationFrom tree.working) := by
  intro sweeps
  have opens :
      openAt sampleInside (smallTier ⟨[]⟩ 0).config =
        ((openAt sampleInside (smallTier ⟨[]⟩ 0).config).1, .ok (smallTier ⟨[]⟩ 0)) :=
    Prod.ext rfl (by decide +kernel)
  obtain ⟨-, bounds⟩ :=
    sweeps _ _ _ _ (fun _ => listsOnce_of_nodup (by decide +kernel) _) opens
  obtain ⟨kept, isListing, within⟩ :=
    bounds [] (.set (Session.sampleKey 1) (Session.sampleStyled "1")) (by decide +kernel)
  have stays : (Session.sampleKey 0, ⟨[1], 0, ⟨0⟩⟩) ∈ kept :=
    isListing.mem_iff.mpr (by decide +kernel)
  exact absurd within.1 (Nat.not_le.mpr (List.length_pos_of_mem stays))

end DiskTier

end SourcePreview
