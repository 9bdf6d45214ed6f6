import SourcePreview.Cache.Memory
import Mathlib.Data.List.Nodup

/-!
# The entries of the memory tier

What an operation of the memory tier finds and what it leaves, in terms of the entries that were
there before.
-/

namespace SourcePreview.MemoryTier

variable {Key Value : Type}

/-- The keys of the entries, most recently used first. -/
def keys (tier : MemoryTier Key Value) : List Key :=
  tier.entries.map Prod.fst

variable
    [DecidableEq Key] {tier used : MemoryTier Key Value} {key : Key} {value : Value}

theorem map_fst_others (tier : MemoryTier Key Value) (key : Key) :
    (tier.others key).map Prod.fst = tier.keys.filter (· ≠ key) := by
  rw [keys, List.filter_map]
  rfl

theorem others_of_not_mem_keys (absent : key ∉ tier.keys) : tier.others key = tier.entries := by
  rw [others, List.filter_eq_self]
  intro entry member
  rw [decide_eq_true_eq]
  rintro rfl
  exact absent (List.mem_map_of_mem member)

/-! ## Finding -/

theorem isSome_find?_iff : (tier.find? key).isSome ↔ key ∈ tier.keys := by
  rw [find?, List.lookup_isSome_iff, keys, List.mem_map]
  constructor
  · rintro ⟨entry, member, same⟩
    exact ⟨entry, member, (eq_of_beq same).symm⟩
  · rintro ⟨entry, member, rfl⟩
    exact ⟨entry, member, beq_self_eq_true _⟩

theorem mem_of_find? (found : tier.find? key = some value) : (key, value) ∈ tier.entries := by
  obtain ⟨before, after, split, _⟩ := List.lookup_eq_some_iff.mp found
  rw [split]
  exact List.mem_append_right before List.mem_cons_self

theorem find?_of_mem_entries
    (nodup : tier.keys.Nodup) (member : (key, value) ∈ tier.entries) :
    tier.find? key = some value := by
  obtain ⟨other, found⟩ :=
    Option.isSome_iff_exists.mp (isSome_find?_iff.mpr (List.mem_map_of_mem member))
  have same := List.inj_on_of_nodup_map nodup (mem_of_find? found) member rfl
  rw [found, (Prod.mk.inj same).2]

/-! ## Setting -/

theorem keys_set (tier : MemoryTier Key Value) (key : Key) (value : Value) :
    (tier.set key value).keys = (key :: tier.keys.filter (· ≠ key)).take tier.capacity := by
  rw [← map_fst_others, keys, set, List.map_take, List.map_cons]

theorem nodup_keys_set (nodup : tier.keys.Nodup) (key : Key) (value : Value) :
    (tier.set key value).keys.Nodup := by
  rw [keys_set]
  apply List.Nodup.sublist (List.take_sublist _ _)
  rw [List.nodup_cons]
  exact ⟨by simp, nodup.filter _⟩

theorem mem_of_mem_set
    {entry : Key × Value} (member : entry ∈ (tier.set key value).entries) :
    entry = (key, value) ∨ entry ∈ tier.entries ∧ entry.1 ≠ key := by
  rcases List.mem_cons.mp (List.mem_of_mem_take member) with new | old
  · exact Or.inl new
  · obtain ⟨inside, different⟩ := List.mem_filter.mp old
    exact Or.inr ⟨inside, of_decide_eq_true different⟩

theorem find?_set_self (positive : 0 < tier.capacity) :
    (tier.set key value).find? key = some value := by
  obtain ⟨capacity, isSucc⟩ := Nat.exists_eq_succ_of_ne_zero (Nat.ne_of_gt positive)
  rw [find?, set, isSucc, Nat.succ_eq_add_one, List.take_succ_cons]
  exact List.lookup_cons_self

/-- Setting a key that has an entry needs no more room. -/
theorem entries_set_of_mem_keys
    (fits : tier.size ≤ tier.capacity) (member : key ∈ tier.keys) (value : Value) :
    (tier.set key value).entries = (key, value) :: tier.others key := by
  obtain ⟨entry, inside, same⟩ := List.mem_map.mp member
  have fewer : (tier.others key).length < tier.entries.length := by
    rw [others, List.length_filter_lt_length_iff_exists]
    exact ⟨entry, inside, by simpa using same⟩
  rw [set, List.take_of_length_le]
  exact Nat.succ_le_of_lt (Nat.lt_of_lt_of_le fewer fits)

/-! ## Getting -/

theorem get_fst (tier : MemoryTier Key Value) (key : Key) : (tier.get key).1 = tier.find? key := by
  rw [get]
  split
  · next found => exact found.symm
  · next missed => exact missed.symm

/-- Finding nothing changes nothing. -/
theorem get_of_find?_eq_none (missed : tier.find? key = none) : tier.get key = (none, tier) := by
  rw [get, missed]

/-- Finding a value is setting it again. -/
theorem get_of_find?_eq_some
    (fits : tier.size ≤ tier.capacity) (found : tier.find? key = some value) :
    tier.get key = (some value, tier.set key value) := by
  have member : key ∈ tier.keys := isSome_find?_iff.mp (by rw [found]; rfl)
  rw [get, found]
  dsimp only
  rw [← entries_set_of_mem_keys fits member value]
  rfl

/-- What was got was there. -/
theorem mem_of_get (found : tier.get key = (some value, used)) : (key, value) ∈ tier.entries := by
  apply mem_of_find?
  rw [← get_fst, found]

/-- Nothing is in memory after a use that was not there before. -/
theorem mem_of_mem_get
    (found : tier.get key = (some value, used))
    {entry : Key × Value} (member : entry ∈ used.entries) :
    entry ∈ tier.entries := by
  have itself := mem_of_get found
  unfold get at found
  split at found
  · cases found
    rcases List.mem_cons.mp member with rfl | old
    · exact itself
    · exact (List.mem_filter.mp old).1
  · cases found

/-- What was just found is found again. -/
theorem find?_of_get (found : tier.get key = (some value, used)) :
    used.find? key = some value := by
  unfold get at found
  split at found
  · cases found
    exact List.lookup_cons_self
  · cases found

end SourcePreview.MemoryTier
