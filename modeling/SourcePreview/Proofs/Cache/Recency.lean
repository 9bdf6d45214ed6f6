import SourcePreview.Proofs.Cache.Memory
import Mathlib.Data.Finset.Card
import Mathlib.Data.List.TakeWhile
import Mathlib.Logic.Function.Basic

/-!
# Memory drops what was used least recently

The entries in memory are those of the keys that were used last, as many as there is room for.
They are known from what was done before, without looking at the memory: an entry is there if its
key was set since everything was cleared and if there is room for it beside the other keys that
were used after it.
-/

namespace SourcePreview.MemoryTier

variable {Key Value : Type}

/-! ## Uses -/

/-- What can be done with a memory tier. -/
inductive Operation (Key Value : Type) where
  | set (key : Key) (value : Value)
  | get (key : Key)
  | contains (key : Key)
  | clear

/-- Whether an operation clears the memory. -/
def Operation.clears : Operation Key Value → Bool
  | .clear => true
  | _ => false

/-- What an operation returns. -/
inductive Answer (Value : Type) where
  | done
  | found (value? : Option Value)
  | present (isPresent : Bool)

/-- An operation and what it returned. -/
structure Event (Key Value : Type) where
  operation : Operation Key Value
  answer : Answer Value

/-- The key that an event uses: one that it sets or finds. -/
def Event.used? (event : Event Key Value) : Option Key :=
  match event.operation, event.answer with
  | .set key _, _ => some key
  | .get key, .found (some _) => some key
  | _, _ => none

/-- The events since the last one that cleared the memory. -/
def sinceClear (past : List (Event Key Value)) : List (Event Key Value) :=
  past.takeWhile fun event => !event.operation.clears

/-- The keys that were used since the memory was cleared, the last one first. -/
def uses (past : List (Event Key Value)) : List Key :=
  (sinceClear past).filterMap Event.used?

variable [DecidableEq Key]

/-- How many other keys were used since the last use of a key. -/
def othersSince (past : List (Event Key Value)) (key : Key) : Nat :=
  ((uses past).takeWhile (· ≠ key)).toFinset.card

/-- The value that an event sets a key to. -/
def Event.valueOf? (key : Key) (event : Event Key Value) : Option Value :=
  match event.operation with
  | .set other value => if other = key then some value else none
  | _ => none

/-- The value that a key was last set to since the memory was cleared. -/
def lastSet? (past : List (Event Key Value)) (key : Key) : Option Value :=
  (sinceClear past).findSome? (Event.valueOf? key)

/-- Setting a key changes its value and no other one. -/
theorem lastSet?_cons_set
    (past : List (Event Key Value)) (key : Key) (value : Value) (answer : Answer Value) :
    lastSet? (⟨.set key value, answer⟩ :: past) =
      Function.update (lastSet? past) key (some value) := by
  funext other
  have isCons : sinceClear (⟨.set key value, answer⟩ :: past) =
      ⟨.set key value, answer⟩ :: sinceClear past := rfl
  have isValue : Event.valueOf? other ⟨.set key value, answer⟩ =
      if key = other then some value else none := rfl
  rw [lastSet?, isCons, List.findSome?_cons, isValue]
  by_cases same : other = key
  · rw [if_pos same.symm, same, Function.update_self]
  · rw [if_neg (Ne.symm same), Function.update_of_ne same]
    rfl

/-- What an operation returns, and the memory after it. -/
def perform
    (tier : MemoryTier Key Value) : Operation Key Value → Answer Value × MemoryTier Key Value
  | .set key value => (.done, tier.set key value)
  | .get key => (.found (tier.get key).1, (tier.get key).2)
  | .contains key => (.present (tier.contains key), tier)
  | .clear => (.done, tier.clear)

/-- What operations return one after another. -/
def answers (tier : MemoryTier Key Value) : List (Operation Key Value) → List (Answer Value)
  | [] => []
  | operation :: operations =>
    (tier.perform operation).1 :: (tier.perform operation).2.answers operations

/-- A memory tier in use. -/
structure Session (Key Value : Type) where
  tier : MemoryTier Key Value
  /-- What was done with it, the last event first. -/
  past : List (Event Key Value)

namespace Session

/-- An empty memory tier, for the wanted number of entries but at least one. -/
def start (wanted : Nat) : Session Key Value :=
  ⟨empty wanted, []⟩

/-- The session after an operation. -/
def after (session : Session Key Value) (operation : Operation Key Value) : Session Key Value :=
  ⟨(session.tier.perform operation).2,
    ⟨operation, (session.tier.perform operation).1⟩ :: session.past⟩

/-- The session after some operations. -/
def run (session : Session Key Value) (operations : List (Operation Key Value)) :
    Session Key Value :=
  operations.foldl after session

end Session

/-! ## Keys by their last use -/

/-- The keys that were used, each once, the one that was used last first. -/
def recency : List Key → List Key
  | [] => []
  | key :: earlier => key :: (recency earlier).filter (· ≠ key)

theorem mem_recency_iff {uses : List Key} {key : Key} : key ∈ recency uses ↔ key ∈ uses := by
  induction uses with
  | nil => exact Iff.rfl
  | cons last earlier ih =>
      rw [recency, List.mem_cons, List.mem_cons, List.mem_filter, ih]
      by_cases same : key = last
      · simp [same]
      · simp [same]

theorem nodup_recency (uses : List Key) : (recency uses).Nodup := by
  induction uses with
  | nil => exact List.nodup_nil
  | cons last earlier ih =>
      rw [recency, List.nodup_cons]
      exact ⟨by simp, ih.filter _⟩

/-- The keys before a key are those that were used since its last use. -/
theorem toFinset_takeWhile_recency (uses : List Key) (key : Key) :
    ((recency uses).takeWhile (· ≠ key)).toFinset = (uses.takeWhile (· ≠ key)).toFinset := by
  induction uses with
  | nil => rfl
  | cons last earlier ih =>
      rw [recency]
      by_cases same : last = key
      · rw [List.takeWhile_cons_of_neg (by simpa using same),
          List.takeWhile_cons_of_neg (by simpa using same)]
      · rw [List.takeWhile_cons_of_pos (by simpa using same),
          List.takeWhile_cons_of_pos (by simpa using same), List.toFinset_cons,
          List.toFinset_cons, ← ih, List.takeWhile_filter, List.toFinset_filter]
        have sameKeys :
            (fun other => !decide (other ≠ last) || decide (other ≠ key)) =
              fun other => decide (other ≠ key) := by
          funext other
          by_cases isLast : other = last
          · simp [isLast, same]
          · simp [isLast]
        rw [sameKeys]
        ext other
        simp only [Finset.mem_insert, Finset.mem_filter, decide_eq_true_eq]
        tauto

/-- A key is among the first ones if few others were used since its last use. -/
theorem mem_take_recency_iff {uses : List Key} {key : Key} {count : Nat} :
    key ∈ (recency uses).take count ↔
      key ∈ uses ∧ (uses.takeWhile (· ≠ key)).toFinset.card < count := by
  have place : (recency uses).idxOf key = (uses.takeWhile (· ≠ key)).toFinset.card := by
    have nodup := (nodup_recency uses).sublist (List.takeWhile_sublist (· ≠ key))
    rw [← toFinset_takeWhile_recency, List.toFinset_card_of_nodup nodup,
      List.takeWhile_eq_take_findIdx_not, List.length_take_of_le List.findIdx_le_length,
      List.idxOf]
    congr 1
    funext other
    rw [decide_not, Bool.not_not]
    rfl
  constructor
  · intro member
    have inside := List.mem_of_mem_take member
    rw [List.mem_take_iff_idxOf_lt inside, place] at member
    exact ⟨mem_recency_iff.mp inside, member⟩
  · rintro ⟨used, few⟩
    have inside := mem_recency_iff.mpr used
    rwa [List.mem_take_iff_idxOf_lt inside, place]

/-- Leaving out one key takes at most one of the first keys away. -/
theorem take_filter_take_succ
    {keys : List Key} (nodup : keys.Nodup) (key : Key) (count : Nat) :
    ((keys.take (count + 1)).filter (· ≠ key)).take count =
      (keys.filter (· ≠ key)).take count := by
  induction keys generalizing count with
  | nil => rfl
  | cons first rest ih =>
      obtain ⟨new, nodup⟩ := List.nodup_cons.mp nodup
      rw [List.take_succ_cons]
      by_cases same : first = key
      -- The key itself comes first, so nothing after it is left out.
      · have kept (some : List Key) (inside : some ⊆ rest) :
            some.filter (· ≠ key) = some := by
          rw [List.filter_eq_self]
          intro other member
          rw [decide_eq_true_eq]
          rintro rfl
          exact new (same ▸ inside member)
        rw [List.filter_cons_of_neg (by simpa using same),
          List.filter_cons_of_neg (by simpa using same), kept _ (List.take_subset ..),
          kept _ (List.Subset.refl _), List.take_take, Nat.min_self]
      · rw [List.filter_cons_of_pos (by simpa using same),
          List.filter_cons_of_pos (by simpa using same)]
        cases count with
        | zero => rfl
        | succ count => rw [List.take_succ_cons, List.take_succ_cons, ih nodup]

/-- What is put in front of the first keys is in front of all of them. -/
theorem take_cons_filter_take
    {keys : List Key} (nodup : keys.Nodup) (key : Key) (count : Nat) :
    (key :: (keys.take count).filter (· ≠ key)).take count =
      (key :: keys.filter (· ≠ key)).take count := by
  cases count with
  | zero => rfl
  | succ count =>
      rw [List.take_succ_cons, List.take_succ_cons, take_filter_take_succ nodup]

/-! ## What is in memory -/

namespace Session

/-- Whether memory has the keys that were used last, with the values that they were last set
to. -/
structure Tracks (session : Session Key Value) (room : Nat) : Prop where
  capacity : session.tier.capacity = room
  keys : session.tier.keys = (recency (uses session.past)).take room
  values : ∀ entry ∈ session.tier.entries, lastSet? session.past entry.1 = some entry.2
  used : ∀ key, key ∈ uses session.past ↔ (lastSet? session.past key).isSome

/-- Whether memory has what was used last and has dropped the rest, and whether only uses decide
about what it drops. -/
structure DropsLeastRecent (session : Session Key Value) (room : Nat) : Prop where
  size_le : session.tier.size ≤ room
  get_iff : ∀ key value,
    (session.tier.get key).1 = some value ↔
      lastSet? session.past key = some value ∧ othersSince session.past key < room
  contains_iff : ∀ key,
    session.tier.contains key = true ↔
      (lastSet? session.past key).isSome ∧ othersSince session.past key < room
  contained : ∀ key later,
    (session.after (.contains key)).tier.answers later = session.tier.answers later
  missed : ∀ key,
    (session.tier.get key).1 = none →
      ∀ later, (session.after (.get key)).tier.answers later = session.tier.answers later

section Step

variable {session next : Session Key Value} {room : Nat}

/-- When nothing was used, there is nothing in memory. -/
theorem tracks_of_nothing
    (capacity : session.tier.capacity = room) (noEntries : session.tier.entries = [])
    (noUses : uses session.past = []) (noValues : lastSet? session.past = fun _ => none) :
    session.Tracks room := by
  refine ⟨capacity, ?_, ?_, ?_⟩
  · rw [MemoryTier.keys, noEntries, noUses, recency, List.map_nil, List.take_nil]
  · rw [noEntries]
    exact List.forall_mem_nil _
  · intro key
    simp [noUses, noValues]

theorem tracks_start (wanted : Nat) :
    (start wanted : Session Key Value).Tracks (max wanted 1) :=
  tracks_of_nothing rfl rfl rfl rfl

variable (tracks : session.Tracks room)

include tracks

theorem Tracks.size_le : session.tier.size ≤ room := by
  rw [size, ← List.length_map Prod.fst]
  change session.tier.keys.length ≤ room
  rw [tracks.keys]
  exact List.length_take_le _ _

/-- What is found is the value that the key was last set to, if there is room for it. -/
theorem Tracks.find?_eq_some_iff {key : Key} {value : Value} :
    session.tier.find? key = some value ↔
      lastSet? session.past key = some value ∧ othersSince session.past key < room := by
  have among : (session.tier.find? key).isSome ↔
      (lastSet? session.past key).isSome ∧ othersSince session.past key < room := by
    rw [isSome_find?_iff, tracks.keys, mem_take_recency_iff, tracks.used, othersSince]
  constructor
  · intro found
    exact ⟨tracks.values _ (mem_of_find? found), (among.mp (by rw [found]; rfl)).2⟩
  · rintro ⟨isLast, few⟩
    obtain ⟨other, found⟩ := Option.isSome_iff_exists.mp (among.mpr ⟨by rw [isLast]; rfl, few⟩)
    have same := tracks.values _ (mem_of_find? found)
    rw [isLast] at same
    cases same
    exact found

/-- Using a key puts it in front, and drops another one if there is no room for all of them. -/
theorem Tracks.use
    {key : Key} {value : Value} (isSet : next.tier = session.tier.set key value)
    (isUsed : uses next.past = key :: uses session.past)
    (isLast : lastSet? next.past = Function.update (lastSet? session.past) key (some value)) :
    next.Tracks room := by
  refine ⟨?_, ?_, ?_, ?_⟩
  · rw [isSet]
    exact tracks.capacity
  · rw [isSet, keys_set, tracks.keys, tracks.capacity, isUsed, recency]
    exact take_cons_filter_take (nodup_recency _) key room
  · intro entry member
    rw [isSet] at member
    rw [isLast]
    rcases mem_of_mem_set member with rfl | ⟨inside, different⟩
    · exact Function.update_self ..
    · rw [Function.update_of_ne different]
      exact tracks.values entry inside
  · intro other
    rw [isUsed, isLast, List.mem_cons]
    by_cases same : other = key
    · simp [same]
    · rw [Function.update_of_ne same, ← tracks.used]
      simp [same]

/-- What uses nothing and sets nothing changes nothing. -/
theorem Tracks.of_same
    (sameTier : next.tier = session.tier)
    (sameUses : uses next.past = uses session.past)
    (sameValues : lastSet? next.past = lastSet? session.past) :
    next.Tracks room := by
  refine ⟨?_, ?_, ?_, ?_⟩
  · rw [sameTier, tracks.capacity]
  · rw [sameTier, sameUses, tracks.keys]
  · rw [sameTier, sameValues]
    exact tracks.values
  · rw [sameUses, sameValues]
    exact tracks.used

theorem Tracks.after (operation : Operation Key Value) :
    (session.after operation).Tracks room := by
  cases operation with
  | set key value => exact tracks.use rfl rfl (lastSet?_cons_set ..)
  | get key =>
      cases found : session.tier.find? key with
      | none =>
          have isMissed :
              session.after (.get key) =
                ⟨session.tier, ⟨.get key, .found none⟩ :: session.past⟩ := by
            rw [Session.after, perform, get_of_find?_eq_none found]
          rw [isMissed]
          exact tracks.of_same rfl rfl rfl
      | some value =>
          have fits : session.tier.size ≤ session.tier.capacity :=
            tracks.capacity ▸ tracks.size_le
          have isFound :
              session.after (.get key) =
                ⟨session.tier.set key value,
                  ⟨.get key, .found (some value)⟩ :: session.past⟩ := by
            rw [Session.after, perform, get_of_find?_eq_some fits found]
          rw [isFound]
          -- The key is set to the value that it has, so the values stay as they were.
          apply tracks.use rfl rfl
          rw [← (tracks.find?_eq_some_iff.mp found).1, Function.update_eq_self]
          rfl
  | contains key => exact tracks.of_same rfl rfl rfl
  | clear => exact tracks_of_nothing tracks.capacity rfl rfl rfl

theorem Tracks.run (operations : List (Operation Key Value)) :
    (session.run operations).Tracks room := by
  induction operations generalizing session with
  | nil => exact tracks
  | cons operation operations ih => exact ih (tracks.after operation)

theorem Tracks.dropsLeastRecent : session.DropsLeastRecent room where
  size_le := tracks.size_le
  get_iff key value := by
    rw [get_fst, tracks.find?_eq_some_iff]
  contains_iff key := by
    rw [contains, Option.isSome_iff_exists, Option.isSome_iff_exists, ← exists_and_right]
    exact exists_congr fun value => tracks.find?_eq_some_iff
  contained _ _ := rfl
  missed key missed later := by
    rw [get_fst] at missed
    rw [Session.after, perform, get_of_find?_eq_none missed]

end Step

/-- After whatever was done with it, an empty memory tier has the values of the keys that were
used last, as many as it has room for. -/
theorem dropsLeastRecent_run (wanted : Nat) (operations : List (Operation Key Value)) :
    ((start wanted).run operations).DropsLeastRecent (max wanted 1) :=
  ((tracks_start wanted).run operations).dropsLeastRecent

example :
    ((start 2).run [.set 1 "a", .set 2 "b", .get 1, .set 3 "c"]).tier.entries =
      [(3, "c"), (1, "a")] := by
  decide

end Session

end SourcePreview.MemoryTier
