import SourcePreview.Proofs.Cache.Recency

/-!
# More room in memory never loses anything

The same is done with two memory tiers of which one has more room.  What only the larger one finds
is used only there, so the keys of both are no longer in the same order.  But those that the
smaller one still has are in the same order in both, and as soon as it has dropped anything, it is
full and drops the last of them, which comes no later than the last one that the larger one has.
-/

namespace SourcePreview.MemoryTier

variable {Key Value : Type}

/-- A part of a list remains one when both lose their last elements. -/
theorem sublist_dropLast {part whole : List Value} (isPart : part.Sublist whole) :
    part.dropLast.Sublist whole.dropLast := by
  have isTail := (List.reverse_sublist.mpr isPart).tail
  rw [List.tail_reverse, List.tail_reverse] at isTail
  exact List.reverse_sublist.mp isTail

variable [DecidableEq Key]

section Entries

variable {tier : MemoryTier Key Value} {key : Key} {value : Value}

/-- While there is room, setting a key drops nothing. -/
theorem entries_set_of_size_lt
    (room : tier.size < tier.capacity) (key : Key) (value : Value) :
    (tier.set key value).entries = (key, value) :: tier.others key := by
  rw [set, List.take_of_length_le]
  exact Nat.succ_le_of_lt ((List.length_filter_le _ _).trans_lt room)

/-- When there is no room, setting another key drops the last entry. -/
theorem entries_set_of_full
    (full : tier.size = tier.capacity) (absent : key ∉ tier.keys) (value : Value) :
    (tier.set key value).entries = ((key, value) :: tier.entries).dropLast := by
  rw [set, others_of_not_mem_keys absent, ← full, List.dropLast_eq_take]
  rfl

/-- A tier that is full is full after setting a key. -/
theorem size_set_of_full
    (nodup : tier.keys.Nodup) (full : tier.size = tier.capacity) (key : Key) (value : Value) :
    (tier.set key value).size = tier.capacity := by
  by_cases member : key ∈ tier.keys
  · have others : (tier.others key).length = tier.keys.length - 1 := by
      rw [← List.length_map Prod.fst, map_fst_others, ← List.length_erase_of_mem member,
        nodup.erase_eq_filter]
      congr 2
      funext other
      exact decide_not
    have some : 0 < tier.keys.length := List.length_pos_of_mem member
    have isSize : tier.keys.length = tier.size := List.length_map _
    rw [size, entries_set_of_mem_keys full.le member, List.length_cons, others, ← full]
    omega
  · rw [size, entries_set_of_full full member, List.length_dropLast, List.length_cons,
      Nat.add_sub_cancel]
    exact full

end Entries

/-- Whether a tier has a part of the entries of another one, in the same order, and all of them
unless it is full. -/
structure IsPartOf (smaller larger : MemoryTier Key Value) : Prop where
  capacity : smaller.capacity ≤ larger.capacity
  smallerFits : smaller.size ≤ smaller.capacity
  largerFits : larger.size ≤ larger.capacity
  nodup : larger.keys.Nodup
  entries : smaller.entries.Sublist larger.entries
  same_or_full : smaller.entries = larger.entries ∨ smaller.size = smaller.capacity

/-- Whether a tier has everything that another one has. -/
structure Covers (larger smaller : MemoryTier Key Value) : Prop where
  contains : ∀ key,
    smaller.contains key = true →
      larger.contains key = true ∧ larger.find? key = smaller.find? key
  get : ∀ key value, (smaller.get key).1 = some value → (larger.get key).1 = some value

section Step

variable {smaller larger : MemoryTier Key Value} (isPart : smaller.IsPartOf larger)

include isPart

theorem IsPartOf.find?
    {key : Key} {value : Value} (found : smaller.find? key = some value) :
    larger.find? key = some value :=
  find?_of_mem_entries isPart.nodup (isPart.entries.subset (mem_of_find? found))

theorem IsPartOf.covers : larger.Covers smaller := by
  constructor
  · intro key isThere
    obtain ⟨value, found⟩ := Option.isSome_iff_exists.mp isThere
    rw [contains, isPart.find? found, found]
    exact ⟨rfl, rfl⟩
  · intro key value
    rw [get_fst, get_fst]
    exact isPart.find?

/-- Where the larger tier drops an entry, the smaller one drops its last one as well. -/
theorem IsPartOf.entries_set (key : Key) (value : Value) :
    (smaller.set key value).entries.Sublist (larger.set key value).entries := by
  have inFront :
      (smaller.set key value).entries.Sublist ((key, value) :: larger.others key) := by
    apply (List.take_sublist _ _).trans
    exact (isPart.entries.filter _).cons_cons _
  by_cases member : key ∈ larger.keys
  · rw [entries_set_of_mem_keys isPart.largerFits member]
    exact inFront
  rcases Nat.lt_or_eq_of_le isPart.largerFits with room | largerFull
  · rw [entries_set_of_size_lt room]
    exact inFront
  -- The larger tier is full and drops its last entry.
  · have absent : key ∉ smaller.keys :=
      fun inside => member ((isPart.entries.map Prod.fst).subset inside)
    have smallerFull : smaller.size = smaller.capacity := by
      rcases isPart.same_or_full with same | full
      · apply Nat.le_antisymm isPart.smallerFits
        rw [size, same]
        exact isPart.capacity.trans largerFull.ge
      · exact full
    rw [entries_set_of_full smallerFull absent, entries_set_of_full largerFull member]
    exact sublist_dropLast (isPart.entries.cons_cons _)

theorem IsPartOf.set (key : Key) (value : Value) :
    (smaller.set key value).IsPartOf (larger.set key value) := by
  refine
    ⟨isPart.capacity, List.length_take_le _ _, List.length_take_le _ _,
      nodup_keys_set isPart.nodup key value, isPart.entries_set key value, ?_⟩
  by_cases full : smaller.size = smaller.capacity
  · have nodup : smaller.keys.Nodup := isPart.nodup.sublist (isPart.entries.map Prod.fst)
    exact Or.inr (size_set_of_full nodup full key value)
  · have same := isPart.same_or_full.resolve_right full
    have room := Nat.lt_of_le_of_ne isPart.smallerFits full
    have largerRoom : larger.size < larger.capacity := by
      rw [size, ← same]
      exact room.trans_le isPart.capacity
    left
    rw [entries_set_of_size_lt room, entries_set_of_size_lt largerRoom, others, others, same]

/-- What only the larger tier finds comes to stand before everything in the smaller one. -/
theorem IsPartOf.set_larger
    {key : Key} (missed : key ∉ smaller.keys) (member : key ∈ larger.keys) (value : Value) :
    smaller.IsPartOf (larger.set key value) := by
  have full : smaller.size = smaller.capacity := by
    apply isPart.same_or_full.resolve_left
    intro same
    exact missed (by rwa [keys, same])
  refine
    ⟨isPart.capacity, isPart.smallerFits, List.length_take_le _ _,
      nodup_keys_set isPart.nodup key value, ?_, Or.inr full⟩
  rw [entries_set_of_mem_keys isPart.largerFits member, ← others_of_not_mem_keys missed]
  exact (isPart.entries.filter _).cons _

/-- A hit in the smaller tier is one in both; the other hits are in the larger one only. -/
theorem IsPartOf.get (key : Key) : (smaller.get key).2.IsPartOf (larger.get key).2 := by
  cases found : smaller.find? key with
  | some value =>
      rw [get_of_find?_eq_some isPart.smallerFits found,
        get_of_find?_eq_some isPart.largerFits (isPart.find? found)]
      exact isPart.set key value
  | none =>
      rw [get_of_find?_eq_none found]
      cases largerFound : larger.find? key with
      | none =>
          rw [get_of_find?_eq_none largerFound]
          exact isPart
      | some value =>
          rw [get_of_find?_eq_some isPart.largerFits largerFound]
          apply isPart.set_larger
          · rw [← isSome_find?_iff, found]
            exact Bool.false_ne_true
          · rw [← isSome_find?_iff, largerFound]
            rfl

theorem IsPartOf.perform (operation : Operation Key Value) :
    (smaller.perform operation).2.IsPartOf (larger.perform operation).2 := by
  cases operation with
  | set key value => exact isPart.set key value
  | get key => exact isPart.get key
  | contains key => exact isPart
  | clear =>
      exact ⟨isPart.capacity, Nat.zero_le _, Nat.zero_le _, List.nodup_nil,
        List.Sublist.refl _, Or.inl rfl⟩

end Step

theorem IsPartOf.run
    {smaller larger : Session Key Value} (isPart : smaller.tier.IsPartOf larger.tier)
    (operations : List (Operation Key Value)) :
    (smaller.run operations).tier.IsPartOf (larger.run operations).tier := by
  induction operations generalizing smaller larger with
  | nil => exact isPart
  | cons operation operations ih => exact ih (isPart.perform operation)

/-- When the same was done with two empty memory tiers, the one with more room has everything that
the other one has. -/
theorem Session.covers_run
    {small large : Nat} (atMost : small ≤ large) (operations : List (Operation Key Value)) :
    ((start large).run operations).tier.Covers ((start small).run operations).tier := by
  have isPart :
      (start small : Session Key Value).tier.IsPartOf (start large : Session Key Value).tier :=
    ⟨max_le_max_right 1 atMost, Nat.zero_le _, Nat.zero_le _, List.nodup_nil,
      List.Sublist.refl _, Or.inl rfl⟩
  exact (isPart.run operations).covers

/-- A tier with room for three entries finds what one with room for two finds, also after a key
that the smaller one has dropped was used in the larger one. -/
theorem Session.covers_run_sample :
    ∃ smaller larger : MemoryTier Nat String,
      smaller = ((start 2).run
        [.set 1 "a", .set 2 "b", .set 3 "c", .get 1, .contains 2]).tier ∧
      larger = ((start 3).run
        [.set 1 "a", .set 2 "b", .set 3 "c", .get 1, .contains 2]).tier ∧
      larger.Covers smaller ∧
      smaller.entries = [(3, "c"), (2, "b")] ∧
      larger.entries = [(1, "a"), (3, "c"), (2, "b")] :=
  ⟨_, _, rfl, rfl, covers_run (by decide) _, by decide, by decide⟩

end SourcePreview.MemoryTier
