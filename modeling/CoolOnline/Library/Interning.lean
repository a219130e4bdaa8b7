import CoolOnline.Library.OrderedMap
import Mathlib.Data.List.Dedup
import Mathlib.Data.List.Perm.Subperm

/-! # Interning

Keys that get values one after the other: a key that is new gets the next one, a key that there is
keeps its own.
-/

namespace CoolOnline.Interning

variable {κ α : Type*} {value : Nat → α}

/-- All keys have the values of their places. -/
def Numbered (value : Nat → α) (m : OrderedMap κ α) : Prop :=
  m.values = (List.range m.keys.length).map value

theorem numbered_empty : Numbered value (OrderedMap.empty : OrderedMap κ α) := rfl

/-- Keys that come of a list are no more than its different elements. -/
theorem length_keys_le {β : Type*} [DecidableEq β] {m : OrderedMap κ α} {f : β → κ} {l : List β}
    (h : ∀ k ∈ m.keys, ∃ b ∈ l, f b = k) : m.keys.length ≤ l.dedup.length := by
  have hsubset : m.keys ⊆ l.dedup.map f := by
    intro k hk
    obtain ⟨b, hb, rfl⟩ := h k hk
    exact List.mem_map_of_mem (List.mem_dedup.mpr hb)
  have hnodup : m.keys.Nodup := m.nodup
  have hle := (hnodup.subperm hsubset).length_le
  rwa [List.length_map] at hle

variable [DecidableEq κ] {m : OrderedMap κ α} {k k' : κ} {a : α}

/-- The value of a key, where `value n` is that of the key that comes after `n` others. -/
def intern (value : Nat → α) (m : OrderedMap κ α) (k : κ) : α × OrderedMap κ α :=
  match m.get k with
  | some a => (a, m)
  | none => (value m.keys.length, m.set k (value m.keys.length))

theorem Numbered.intern (h : Numbered value m) (k : κ) : Numbered value (intern value m k).2 := by
  rw [Interning.intern]
  split
  case h_1 => exact h
  case h_2 hnone =>
    have hnot : ¬ m.has k = true := by simp [OrderedMap.has, hnone]
    rw [Numbered, OrderedMap.values_set_of_not_has hnot, OrderedMap.keys_set_of_not_has hnot, h,
      List.length_append, List.length_singleton, List.range_succ, List.map_append,
      List.map_singleton]

/-- The key has the value that is returned. -/
theorem get_intern_self (m : OrderedMap κ α) (k : κ) :
    (intern value m k).2.get k = some (intern value m k).1 := by
  rw [intern]
  split
  case h_1 a hget => exact hget
  case h_2 => exact OrderedMap.get_set_self

/-- Other keys keep theirs. -/
theorem get_intern_of_get (h : m.get k = some a) (k' : κ) :
    (intern value m k').2.get k = some a := by
  rw [intern]
  split
  case h_1 => exact h
  case h_2 hnone =>
    rw [OrderedMap.get_set_ne, h]
    rintro rfl
    rw [h] at hnone
    cases hnone

theorem mem_keys_intern : k' ∈ (intern value m k).2.keys ↔ k' = k ∨ k' ∈ m.keys := by
  rw [intern]
  split
  case h_1 a hget =>
    refine (or_iff_right_of_imp ?_).symm
    rintro rfl
    exact OrderedMap.mem_keys_of_get hget
  case h_2 hnone =>
    have hnot : ¬ m.has k = true := by simp [OrderedMap.has, hnone]
    rw [OrderedMap.keys_set_of_not_has hnot, List.mem_append, List.mem_singleton, or_comm]

/-- A value is that of the place of its key. -/
theorem Numbered.exists_place (h : Numbered value m) (hget : m.get k = some a) :
    ∃ i, m.keys[i]? = some k ∧ a = value i := by
  obtain ⟨i, hi⟩ := List.getElem?_of_mem (OrderedMap.mem_of_find hget)
  have hvalue : m.values[i]? = some a := by rw [OrderedMap.values, List.getElem?_map, hi]; rfl
  rw [h, List.getElem?_map, Option.map_eq_some_iff] at hvalue
  obtain ⟨j, hj, rfl⟩ := hvalue
  obtain ⟨hlt, rfl⟩ := List.getElem?_eq_some_iff.mp hj
  rw [List.getElem_range]
  refine ⟨i, ?_, rfl⟩
  rw [OrderedMap.keys, List.getElem?_map, hi]
  rfl

/-- As long as the values differ, different keys have different values. -/
theorem Numbered.key_unique (h : Numbered value m)
    (hvalue : ∀ i < m.keys.length, ∀ j < m.keys.length, value i = value j → i = j)
    (hk : m.get k = some a) (hk' : m.get k' = some a) : k = k' := by
  obtain ⟨i, hi, rfl⟩ := h.exists_place hk
  obtain ⟨j, hj, heq⟩ := h.exists_place hk'
  have hplace := hvalue i (List.getElem?_eq_some_iff.mp hi).1 j (List.getElem?_eq_some_iff.mp hj).1 heq
  rw [← hplace, hi] at hj
  exact Option.some.inj hj

end CoolOnline.Interning
