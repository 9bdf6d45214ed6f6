import SourcePreview.Cache.Eviction
import Mathlib.Algebra.GroupWithZero.Nat
import Mathlib.Logic.Relation

/-!
# The account of an eviction

An eviction goes through the entries in the order of their last use and keeps account of how many
of them, and how many bytes, are not yet freed.  Whatever the attempts to remove them come to, the
account is exact before every look at the bounds, so nothing is ever subtracted that is not there,
and the eviction ends at the first look at which the entries that are not yet freed are within
bounds.
-/

namespace SourcePreview.Eviction

/-- An attempt to remove an entry, and how it ended. -/
structure Attempt where
  entry : ScannedEntry
  outcome : Removal

/-- Attempts to remove something at each of some paths: how they end, and the state after them. -/
def attemptEach {State : Type} (remove : Path → State → Removal × State) :
    List Path → State → List Removal × State
  | [], state => ([], state)
  | path :: paths, state =>
    let (outcome, state) := remove path state
    let (outcomes, state) := attemptEach remove paths state
    (outcome :: outcomes, state)

/-- An eviction before a look at the bounds. -/
structure Loop (State : Type) where
  /-- The attempts so far, the first one first. -/
  attempts : List Attempt
  /-- The entries that were not attempted. -/
  left : List ScannedEntry
  /-- The running number of entries. -/
  count : Nat
  /-- The running number of bytes. -/
  size : Nat
  /-- How many entries were removed so far. -/
  removed : Nat
  state : State

namespace Loop

variable {State : Type}

/-- An eviction before its first look at the bounds. -/
def start (entries : List ScannedEntry) (state : State) : Loop State :=
  ⟨[], oldestFirst entries, entries.length, totalSize entries, 0, state⟩

/-- The eviction after an attempt at the first entry that is left. -/
def attempted
    (loop : Loop State) (entry : ScannedEntry) (left : List ScannedEntry)
    (ended : Removal × State) : Loop State where
  attempts := loop.attempts ++ [⟨entry, ended.1⟩]
  left := left
  count := if ended.1 = .failed then loop.count else loop.count - 1
  size := if ended.1 = .failed then loop.size else loop.size - entry.size
  removed := loop.removed + if ended.1 = .removed then 1 else 0
  state := ended.2

/-- The entries that are not yet freed: those whose removal failed and those that were not
attempted. -/
def pending (loop : Loop State) : List ScannedEntry :=
  (loop.attempts.filter fun attempt => attempt.outcome = .failed).map Attempt.entry ++ loop.left

section

variable (remove : Path → State → Removal × State) (bounds : Bounds)

/-- The eviction before its next look at the bounds, unless it ends at this one. -/
def next? (loop : Loop State) : Option (Loop State) :=
  match loop.left with
  | [] => none
  | entry :: left =>
    if bounds.hold loop.count loop.size then none
    else some (loop.attempted entry left (remove entry.path loop.state))

/-- Whether an eviction comes from one look at the bounds to another one. -/
def ComesTo : Loop State → Loop State → Prop :=
  Relation.ReflTransGen fun loop next => loop.next? remove bounds = some next

/-- What an eviction comes to from here. -/
def result (loop : Loop State) : Nat × State :=
  let (removed, state) :=
    removeUntil remove bounds loop.count loop.size loop.left loop.state
  (loop.removed + removed, state)

theorem result_start (entries : List ScannedEntry) (state : State) :
    (start entries state).result remove bounds = evictOldest remove bounds entries state := by
  simp only [result, start, evictOldest, Nat.zero_add]

variable {remove bounds} {loop next : Loop State}

theorem next?_eq_some_iff :
    loop.next? remove bounds = some next ↔
      bounds.hold loop.count loop.size = false ∧
        ∃ entry left, loop.left = entry :: left ∧
          next = loop.attempted entry left (remove entry.path loop.state) := by
  unfold next?
  constructor
  · intro goesOn
    split at goesOn
    · cases goesOn
    · next entry left isLeft =>
        split at goesOn
        · cases goesOn
        · next exceeded =>
            exact
              ⟨Bool.eq_false_iff.mpr exceeded, entry, left, isLeft,
                (Option.some.inj goesOn).symm⟩
  · rintro ⟨exceeded, entry, left, isLeft, rfl⟩
    rw [isLeft]
    exact if_neg (Bool.eq_false_iff.mp exceeded)

theorem next?_eq_none_iff :
    loop.next? remove bounds = none ↔
      loop.left = [] ∨ bounds.hold loop.count loop.size = true := by
  unfold next?
  split
  · next none => simp [none]
  · next entry left isLeft => simp [isLeft]

/-- An eviction comes to the same from one look at the bounds and from the next one. -/
theorem result_of_next?_eq_some (goesOn : loop.next? remove bounds = some next) :
    next.result remove bounds = loop.result remove bounds := by
  obtain ⟨exceeded, entry, left, isLeft, rfl⟩ := next?_eq_some_iff.mp goesOn
  rw [result, result, isLeft, removeUntil, if_neg (Bool.eq_false_iff.mp exceeded)]
  rcases remove entry.path loop.state with ⟨outcome, state⟩
  cases outcome with
  | removed => simp [attempted, Nat.add_assoc, Nat.add_comm 1]
  | alreadyGone => simp [attempted]
  | failed => simp [attempted]

/-- An eviction that ends here has removed what it has removed so far. -/
theorem result_of_next?_eq_none (ends : loop.next? remove bounds = none) :
    loop.result remove bounds = (loop.removed, loop.state) := by
  rw [result]
  cases isLeft : loop.left with
  | nil => rfl
  | cons entry left =>
      have hold := (next?_eq_none_iff.mp ends).resolve_left (by simp [isLeft])
      rw [removeUntil, if_pos hold]
      rfl

/-- Every eviction ends. -/
theorem exists_comesTo_end (loop : Loop State) :
    ∃ final, ComesTo remove bounds loop final ∧ final.next? remove bounds = none := by
  obtain ⟨left, isLeft⟩ : ∃ left, loop.left = left := ⟨_, rfl⟩
  induction left generalizing loop with
  | nil => exact ⟨loop, .refl, next?_eq_none_iff.mpr (Or.inl isLeft)⟩
  | cons entry left ih =>
      cases goesOn : loop.next? remove bounds with
      | none => exact ⟨loop, .refl, goesOn⟩
      | some next =>
          obtain ⟨_, _, _, sameLeft, rfl⟩ := next?_eq_some_iff.mp goesOn
          rw [isLeft] at sameLeft
          cases sameLeft
          obtain ⟨final, comes, ends⟩ := ih (loop.attempted entry left _) rfl
          exact ⟨final, .head goesOn comes, ends⟩

theorem result_of_comesTo (comes : ComesTo remove bounds loop next) :
    next.result remove bounds = loop.result remove bounds := by
  induction comes with
  | refl => rfl
  | tail _ goesOn same => exact (result_of_next?_eq_some goesOn).trans same

end

/-- Whether an eviction that started with some entries in this order, and in some state, has kept
its account exactly. -/
structure IsExact
    (remove : Path → State → Removal × State) (order : List ScannedEntry) (first : State)
    (loop : Loop State) : Prop where
  /-- The entries that were attempted come first, each of them once. -/
  order : loop.attempts.map Attempt.entry ++ loop.left = order
  /-- The outcomes and the state are those of attempts at these entries, one after the other. -/
  attempts :
    attemptEach remove (loop.attempts.map fun attempt => attempt.entry.path) first =
      (loop.attempts.map Attempt.outcome, loop.state)
  count : loop.count = loop.pending.length
  size : loop.size = totalSize loop.pending
  removed : loop.removed = loop.attempts.countP fun attempt => attempt.outcome = .removed

end Loop

theorem totalSize_eq_sum (entries : List ScannedEntry) :
    totalSize entries = (entries.map ScannedEntry.size).sum := by
  induction entries with
  | nil => rfl
  | cons entry entries ih =>
      rw [List.map_cons, List.sum_cons, ← ih]
      rfl

theorem totalSize_append (first second : List ScannedEntry) :
    totalSize (first ++ second) = totalSize first + totalSize second := by
  simp only [totalSize_eq_sum, List.map_append, List.sum_append]

theorem totalSize_cons (entry : ScannedEntry) (entries : List ScannedEntry) :
    totalSize (entry :: entries) = entry.size + totalSize entries := rfl

theorem totalSize_le_of_sublist
    {fewer entries : List ScannedEntry} (sublist : fewer.Sublist entries) :
    totalSize fewer ≤ totalSize entries := by
  induction sublist with
  | slnil => exact Nat.le_refl _
  | cons entry _ ih => exact Nat.le_trans ih (Nat.le_add_left _ entry.size)
  | cons_cons entry _ ih => exact Nat.add_le_add_left ih entry.size

theorem totalSize_oldestFirst (entries : List ScannedEntry) :
    totalSize (oldestFirst entries) = totalSize entries := by
  rw [totalSize_eq_sum, totalSize_eq_sum]
  exact ((List.mergeSort_perm entries _).map ScannedEntry.size).sum_nat

/-- One more attempt comes after those before it. -/
theorem attemptEach_append_singleton
    {State : Type} (remove : Path → State → Removal × State) (paths : List Path) (last : Path)
    (state : State) :
    attemptEach remove (paths ++ [last]) state =
      let before := attemptEach remove paths state
      (before.1 ++ [(remove last before.2).1], (remove last before.2).2) := by
  induction paths generalizing state with
  | nil => rfl
  | cons path paths ih =>
      simp only [List.cons_append, attemptEach, ih]

namespace Loop

variable
    {State : Type} {remove : Path → State → Removal × State} {bounds : Bounds}
    {order : List ScannedEntry} {first : State} {loop next : Loop State}

theorem isExact_start
    (remove : Path → State → Removal × State) (entries : List ScannedEntry) (state : State) :
    (start entries state).IsExact remove (oldestFirst entries) state where
  order := rfl
  attempts := rfl
  count := (List.length_mergeSort entries).symm
  size := (totalSize_oldestFirst entries).symm
  removed := rfl

/-- An attempt at the next entry keeps the account exact, however it ends. -/
theorem IsExact.of_next?
    (exact : loop.IsExact remove order first) (goesOn : loop.next? remove bounds = some next) :
    next.IsExact remove order first := by
  obtain ⟨_, entry, left, isLeft, rfl⟩ := next?_eq_some_iff.mp goesOn
  have inOrder := exact.order
  have count := exact.count
  have size := exact.size
  rw [pending, isLeft] at count size
  rw [List.length_append, List.length_cons] at count
  rw [totalSize_append, totalSize_cons] at size
  refine ⟨?order, ?attempts, ?count, ?size, ?removed⟩
  case order => simp [attempted, ← inOrder, isLeft]
  case attempts =>
    have replayed :=
      attemptEach_append_singleton remove
        (loop.attempts.map fun attempt => attempt.entry.path) entry.path first
    rw [exact.attempts] at replayed
    simpa [attempted] using replayed
  -- An entry goes on counting exactly if its removal failed.
  case count =>
    by_cases failed : (remove entry.path loop.state).1 = .failed
    · simp [attempted, pending, failed, count]
    · simp [attempted, pending, failed, count]
  case size =>
    by_cases failed : (remove entry.path loop.state).1 = .failed
    · simp [attempted, pending, failed, totalSize_append, totalSize_cons, size]
    · simp [attempted, pending, failed, totalSize_append, size]
      omega
  case removed =>
    by_cases removed : (remove entry.path loop.state).1 = .removed
    · simp [attempted, removed, exact.removed]
    · simp [attempted, removed, exact.removed]

/-- An exact account stays exact until the end. -/
theorem IsExact.of_comesTo
    (exact : loop.IsExact remove order first) (comes : ComesTo remove bounds loop next) :
    next.IsExact remove order first := by
  induction comes with
  | refl => exact exact
  | tail _ goesOn stillExact => exact stillExact.of_next? goesOn

/-- What is not yet freed comes in the order in which it was to be attempted. -/
theorem IsExact.pending_sublist (exact : loop.IsExact remove order first) :
    loop.pending.Sublist order := by
  rw [pending, ← exact.order]
  exact (List.filter_sublist.map Attempt.entry).append_right loop.left

/-- The next entry is still accounted for. -/
theorem IsExact.le_of_left_eq_cons
    (exact : loop.IsExact remove order first) {entry : ScannedEntry} {left : List ScannedEntry}
    (isLeft : loop.left = entry :: left) :
    1 ≤ loop.count ∧ entry.size ≤ loop.size := by
  rw [exact.count, exact.size, pending, isLeft, totalSize_append, totalSize_cons,
    List.length_append, List.length_cons]
  omega

end Loop

/-- Whether some entries are others in the order of their last use, where those that were last used
at the same time come in the order in which they are given. -/
structure IsInStableOrder (entries ordered : List ScannedEntry) : Prop where
  perm : ordered.Perm entries
  pairwise : ordered.Pairwise fun earlier later => earlier.used ≤ later.used
  stable : ∀ time,
    (ordered.filter fun entry => entry.used = time) =
      entries.filter fun entry => entry.used = time

theorem isInStableOrder_oldestFirst (entries : List ScannedEntry) :
    IsInStableOrder entries (oldestFirst entries) := by
  have transitive (first second third : ScannedEntry) :
      decide (first.used ≤ second.used) = true → decide (second.used ≤ third.used) = true →
        decide (first.used ≤ third.used) = true := by
    simp only [decide_eq_true_eq]
    exact Int.le_trans
  have total (first second : ScannedEntry) :
      (decide (first.used ≤ second.used) || decide (second.used ≤ first.used)) = true := by
    simp only [Bool.or_eq_true, decide_eq_true_eq]
    exact Int.le_total _ _
  have perm := List.mergeSort_perm entries fun left right => decide (left.used ≤ right.used)
  refine ⟨perm, ?_, fun time => ?_⟩
  · exact (List.pairwise_mergeSort transitive total entries).imp of_decide_eq_true
  · -- Sorting keeps the order of what was used at one time, and loses nothing of it.
    have together :
        (entries.filter fun entry => entry.used = time).Pairwise
          fun left right => decide (left.used ≤ right.used) = true := by
      refine List.pairwise_of_forall_mem_list fun left isLeft right isRight => ?_
      rw [List.mem_filter, decide_eq_true_eq] at isLeft isRight
      rw [decide_eq_true_eq, isLeft.2, isRight.2]
      exact Int.le_refl _
    have kept := List.sublist_mergeSort transitive total together List.filter_sublist
    have keptAmong := kept.filter fun entry => entry.used = time
    rw [List.filter_filter] at keptAmong
    simp only [Bool.and_self] at keptAmong
    exact (keptAmong.eq_of_length (perm.filter _).length_eq.symm).symm

/-- An eviction attempts entries in the order of their last use, and its account of what is not yet
freed is exact at every look at the bounds, whatever the attempts come to.  So nothing is
subtracted that is not there, and the eviction ends at the first look at which what is not yet
freed is within bounds, or after the last entry.  It counts the removals. -/
theorem evictOldest_isExact
    {State : Type} (remove : Path → State → Removal × State) (bounds : Bounds)
    (entries : List ScannedEntry) (state : State) :
    IsInStableOrder entries (oldestFirst entries) ∧
      (∃ final,
        Loop.ComesTo remove bounds (.start entries state) final ∧
          final.next? remove bounds = none ∧
            evictOldest remove bounds entries state =
              (final.attempts.countP fun attempt => attempt.outcome = .removed, final.state)) ∧
      ∀ loop, Loop.ComesTo remove bounds (.start entries state) loop →
        loop.IsExact remove (oldestFirst entries) state ∧
          loop.result remove bounds = evictOldest remove bounds entries state ∧
          (loop.next? remove bounds = none ↔
            loop.left = [] ∨
              bounds.hold loop.pending.length (totalSize loop.pending) = true) ∧
          (∀ entry left, loop.left = entry :: left →
            1 ≤ loop.count ∧ entry.size ≤ loop.size) ∧
          loop.count ≤ entries.length ∧ loop.size ≤ totalSize entries := by
  have stable := isInStableOrder_oldestFirst entries
  have exact := Loop.isExact_start remove entries state
  refine ⟨stable, ?ends, fun loop comes => ?account⟩
  case ends =>
    obtain ⟨final, comes, ends⟩ :=
      @Loop.exists_comesTo_end State remove bounds (Loop.start entries state)
    refine ⟨final, comes, ends, ?_⟩
    rw [← Loop.result_start, ← Loop.result_of_comesTo comes, Loop.result_of_next?_eq_none ends,
      (exact.of_comesTo comes).removed]
  case account =>
    have stillExact := exact.of_comesTo comes
    have fewer := stillExact.pending_sublist
    refine ⟨stillExact, ?_, ?_, fun _ _ => stillExact.le_of_left_eq_cons, ?_, ?_⟩
    · rw [Loop.result_of_comesTo comes, Loop.result_start]
    · rw [Loop.next?_eq_none_iff, stillExact.count, stillExact.size]
    · rw [stillExact.count, ← stable.perm.length_eq]
      exact fewer.length_le
    · rw [stillExact.size, ← totalSize_oldestFirst entries]
      exact totalSize_le_of_sublist fewer

/-- Four entries, of which the second one was used longest ago. -/
def sampleEntries : List ScannedEntry :=
  [⟨.ofString "d", 10, ⟨4⟩⟩, ⟨.ofString "a", 10, ⟨1⟩⟩, ⟨.ofString "c", 10, ⟨3⟩⟩,
    ⟨.ofString "b", 10, ⟨2⟩⟩]

/-- The same entries in the order of their last use. -/
def sampleOrder : List ScannedEntry :=
  [⟨.ofString "a", 10, ⟨1⟩⟩, ⟨.ofString "b", 10, ⟨2⟩⟩, ⟨.ofString "c", 10, ⟨3⟩⟩,
    ⟨.ofString "d", 10, ⟨4⟩⟩]

theorem oldestFirst_sampleEntries : oldestFirst sampleEntries = sampleOrder := by
  have stable := isInStableOrder_oldestFirst sampleEntries
  have perm : (oldestFirst sampleEntries).Perm sampleOrder :=
    stable.perm.trans (by decide +kernel)
  have apart :
      ∀ first ∈ sampleOrder, ∀ second ∈ sampleOrder,
        first.used ≤ second.used → second.used ≤ first.used → first = second := by
    decide +kernel
  exact
    perm.eq_of_pairwise
      (fun first second isFirst isSecond =>
        apart first (perm.mem_iff.mp isFirst) second isSecond)
      stable.pairwise (by decide +kernel)

/-- Everything but one entry can be removed; the state is what was attempted. -/
def sampleRemove (path : Path) (attempted : List Path) : Removal × List Path :=
  (if path = .ofString "a" then .failed else .removed, attempted ++ [path])

/-- An entry that cannot be removed goes on counting, so that two others are removed to keep two. -/
theorem evictOldest_isExact_sample :
    evictOldest sampleRemove ⟨2, 1000⟩ sampleEntries [] =
        (2, [.ofString "a", .ofString "b", .ofString "c"]) ∧
      ∃ loop,
        (Loop.start sampleEntries []).next? sampleRemove ⟨2, 1000⟩ = some loop ∧
          loop.pending.length = 4 ∧
            loop.IsExact sampleRemove (oldestFirst sampleEntries) [] := by
  obtain ⟨-, -, account⟩ := evictOldest_isExact sampleRemove ⟨2, 1000⟩ sampleEntries []
  have goesOn :
      (Loop.start sampleEntries []).next? sampleRemove ⟨2, 1000⟩ =
        some
          ((Loop.start sampleEntries []).attempted ⟨.ofString "a", 10, ⟨1⟩⟩
            [⟨.ofString "b", 10, ⟨2⟩⟩, ⟨.ofString "c", 10, ⟨3⟩⟩, ⟨.ofString "d", 10, ⟨4⟩⟩]
            (.failed, [.ofString "a"])) := by
    refine Loop.next?_eq_some_iff.mpr
      ⟨by decide +kernel, _, _, oldestFirst_sampleEntries, ?_⟩
    rfl
  refine ⟨?_, _, goesOn, rfl, (account _ (.single goesOn)).1⟩
  rw [evictOldest, oldestFirst_sampleEntries]
  decide +kernel

end SourcePreview.Eviction
