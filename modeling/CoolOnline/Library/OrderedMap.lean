import Mathlib.Algebra.Order.Ring.Int
import Mathlib.Data.List.Basic
import Mathlib.Data.List.Nodup

/-! # Maps in the order of insertion

A map that is iterated over in the order in which its keys were inserted. A key that is set again
keeps its place.
-/

namespace CoolOnline

structure OrderedMap (κ α : Type*) where
  entries : List (κ × α)
  nodup : (entries.map Prod.fst).Nodup

namespace OrderedMap

variable {κ α : Type*} [DecidableEq κ]

def empty : OrderedMap κ α := ⟨[], List.nodup_nil⟩

def keys (m : OrderedMap κ α) : List κ := m.entries.map Prod.fst

def values (m : OrderedMap κ α) : List α := m.entries.map Prod.snd

/-- The value of the first entry of a key. -/
def find (k : κ) : List (κ × α) → Option α
  | [] => none
  | (k', a) :: entries => if k' = k then some a else find k entries

def get (m : OrderedMap κ α) (k : κ) : Option α := find k m.entries

def has (m : OrderedMap κ α) (k : κ) : Bool := (m.get k).isSome

/-- The entries with the value of a key replaced, if it is there. -/
def replace (k : κ) (a : α) : List (κ × α) → List (κ × α)
  | [] => []
  | (k', a') :: entries => (k', if k' = k then a else a') :: replace k a entries

theorem map_fst_replace (k : κ) (a : α) (l : List (κ × α)) :
    (replace k a l).map Prod.fst = l.map Prod.fst := by
  induction l with
  | nil => rfl
  | cons entry l ih => simp [replace, ih]

theorem find_eq_none {k : κ} {l : List (κ × α)} : find k l = none ↔ k ∉ l.map Prod.fst := by
  induction l with
  | nil => simp [find]
  | cons entry l ih =>
      simp only [find, List.map_cons, List.mem_cons, not_or]
      split
      case isTrue h => simp [h]
      case isFalse h =>
        rw [ih]
        exact ⟨fun hrest => ⟨Ne.symm h, hrest⟩, fun hrest => hrest.2⟩

theorem has_iff {m : OrderedMap κ α} {k : κ} : m.has k = true ↔ k ∈ m.keys := by
  rw [has, ← not_iff_not, Bool.not_eq_true, Option.isSome_eq_false_iff, Option.isNone_iff_eq_none]
  exact find_eq_none

def set (m : OrderedMap κ α) (k : κ) (a : α) : OrderedMap κ α :=
  if h : k ∈ m.entries.map Prod.fst then
    ⟨replace k a m.entries, (map_fst_replace k a m.entries).symm ▸ m.nodup⟩
  else
    ⟨m.entries ++ [(k, a)], by
      rw [List.map_append, List.nodup_append]
      refine ⟨m.nodup, List.nodup_singleton _, ?_⟩
      intro k₁ h₁ k₂ h₂ heq
      have h₂ : k₂ = k := by simpa using h₂
      exact h (h₂ ▸ heq ▸ h₁)⟩

/-- The entries whose key meets a condition. -/
def filterKeys (m : OrderedMap κ α) (p : κ → Bool) : OrderedMap κ α :=
  ⟨m.entries.filter fun entry => p entry.1, m.nodup.sublist (List.filter_sublist.map _)⟩

def delete (m : OrderedMap κ α) (k : κ) : OrderedMap κ α := m.filterKeys fun k' => k' ≠ k

/-- The value of a key, changed if it is there. -/
def modify (m : OrderedMap κ α) (k : κ) (f : α → α) : OrderedMap κ α :=
  match m.get k with
  | none => m
  | some a => m.set k (f a)

/-- All values changed. -/
def mapValues (m : OrderedMap κ α) (f : α → α) : OrderedMap κ α :=
  ⟨m.entries.map fun entry => (entry.1, f entry.2), by
    rw [List.map_map]
    exact m.nodup⟩

variable {m : OrderedMap κ α} {k k' : κ} {a : α} {f : α → α}

@[simp] theorem get_empty : (empty : OrderedMap κ α).get k = none := rfl

theorem find_append (l l' : List (κ × α)) : find k (l ++ l') = (find k l).or (find k l') := by
  induction l with
  | nil => simp [find]
  | cons entry l ih =>
      simp only [List.cons_append, find]
      split
      · simp
      · exact ih

theorem find_replace (l : List (κ × α)) :
    find k (replace k' a l) = if k' = k then (find k l).map fun _ => a else find k l := by
  induction l with
  | nil => simp [replace, find]
  | cons entry l ih =>
      by_cases hkey : entry.1 = k
      · by_cases h : k' = k
        · simp [replace, find, hkey, h]
        · simp [replace, find, hkey, h, Ne.symm h]
      · simp [replace, find, hkey, ih]

theorem replace_of_find_eq_none {l : List (κ × α)} (h : find k l = none) : replace k a l = l := by
  induction l with
  | nil => rfl
  | cons entry l ih =>
      rw [find] at h
      split_ifs at h with hkey
      rw [replace, if_neg hkey, ih h]

theorem get_set : (m.set k' a).get k = if k' = k then some a else m.get k := by
  rw [set]
  split
  case isTrue h =>
    rw [get, find_replace]
    split
    case isTrue hk =>
      subst hk
      obtain ⟨b, hb⟩ := Option.isSome_iff_exists.mp (has_iff.mpr h)
      rw [show find k' m.entries = some b from hb]
      rfl
    case isFalse => rfl
  case isFalse h =>
    rw [get, find_append]
    by_cases hk : k' = k
    · subst hk
      rw [find_eq_none.mpr h]
      simp [find]
    · simp [find, hk, get]

@[simp] theorem get_set_self : (m.set k a).get k = some a := by simp [get_set]

theorem get_set_ne (h : k' ≠ k) : (m.set k' a).get k = m.get k := by simp [get_set, h]

theorem replace_replace {b : α} (l : List (κ × α)) :
    replace k b (replace k a l) = replace k b l := by
  induction l with
  | nil => rfl
  | cons entry l ih =>
      rw [replace, replace, replace, ih]
      split <;> rfl

theorem replace_append_new {b : α} {l : List (κ × α)} (h : k ∉ l.map Prod.fst) :
    replace k b (l ++ [(k, a)]) = l ++ [(k, b)] := by
  induction l with
  | nil => simp [replace]
  | cons entry l ih =>
      simp only [List.map_cons, List.mem_cons, not_or] at h
      rw [List.cons_append, replace, if_neg (Ne.symm h.1), ih h.2]
      rfl

theorem set_set {b : α} : (m.set k a).set k b = m.set k b := by
  by_cases hmem : k ∈ m.entries.map Prod.fst
  · have hagain : k ∈ (replace k a m.entries).map Prod.fst := by
      rw [map_fst_replace]
      exact hmem
    simp only [set, dif_pos hmem, dif_pos hagain, replace_replace]
  · have hagain : k ∈ (m.entries ++ [(k, a)]).map Prod.fst := by simp
    simp only [set, dif_neg hmem, dif_pos hagain, replace_append_new hmem]

theorem has_set_of_has (h : m.has k = true) : (m.set k' a).has k = true := by
  rw [has, get_set]
  split
  · rfl
  · exact h

@[simp] theorem has_set_self : (m.set k a).has k = true := by simp [has]

theorem get_filterKeys {p : κ → Bool} :
    (m.filterKeys p).get k = if p k then m.get k else none := by
  obtain ⟨l, hl⟩ := m
  simp only [filterKeys, get]
  clear hl
  induction l with
  | nil => simp [find]
  | cons entry l ih =>
      rw [List.filter_cons, find]
      cases hp : p entry.1 with
      | true =>
          rw [if_pos rfl, find, ih]
          by_cases hkey : entry.1 = k
          · simp [← hkey, hp]
          · simp [hkey]
      | false =>
          rw [if_neg Bool.false_ne_true, ih]
          by_cases hkey : entry.1 = k
          · simp [← hkey, hp]
          · simp [hkey]

theorem get_delete : (m.delete k').get k = if k' = k then none else m.get k := by
  rw [delete, get_filterKeys]
  by_cases h : k' = k
  · simp [h]
  · simp [h, Ne.symm h]

theorem get_modify : (m.modify k' f).get k = if k' = k then (m.get k).map f else m.get k := by
  rw [modify]
  by_cases h : k' = k
  · subst h
    cases hget : m.get k' <;> simp [hget]
  · cases hget : m.get k' <;> simp [h, get_set_ne]

theorem get_mapValues : (m.mapValues f).get k = (m.get k).map f := by
  obtain ⟨l, hl⟩ := m
  simp only [mapValues, get]
  clear hl
  induction l with
  | nil => rfl
  | cons entry l ih =>
      simp only [List.map_cons, find]
      split
      · rfl
      · exact ih

theorem mem_keys_of_get (h : m.get k = some a) : k ∈ m.keys :=
  has_iff.mp (by simp [has, h])

theorem mem_of_find {l : List (κ × α)} (h : find k l = some a) : (k, a) ∈ l := by
  induction l with
  | nil => cases h
  | cons entry l ih =>
      rw [find] at h
      split_ifs at h with hkey
      · cases h
        exact hkey ▸ List.mem_cons_self
      · exact List.mem_cons_of_mem _ (ih h)

theorem mem_values_of_get (h : m.get k = some a) : a ∈ m.values :=
  List.mem_map.mpr ⟨_, mem_of_find h, rfl⟩

theorem find_of_mem {l : List (κ × α)} (hnodup : (l.map Prod.fst).Nodup) (hmem : (k, a) ∈ l) :
    find k l = some a := by
  induction l with
  | nil => cases hmem
  | cons entry l ih =>
      rcases entry with ⟨key, value⟩
      rw [List.map_cons, List.nodup_cons] at hnodup
      rcases List.mem_cons.mp hmem with heq | hmem
      · cases heq
        exact if_pos rfl
      · have hne : key ≠ k := by
          intro heq
          rw [heq] at hnodup
          exact hnodup.1 (List.mem_map.mpr ⟨_, hmem, rfl⟩)
        rw [find, if_neg hne]
        exact ih hnodup.2 hmem

theorem get_of_mem (hmem : (k, a) ∈ m.entries) : m.get k = some a := find_of_mem m.nodup hmem

theorem keys_set_of_has (h : m.has k = true) : (m.set k a).keys = m.keys := by
  have hmem : k ∈ m.entries.map Prod.fst := has_iff.mp h
  rw [set, dif_pos hmem, keys, map_fst_replace]
  rfl

theorem keys_set_of_not_has (h : ¬ m.has k = true) : (m.set k a).keys = m.keys ++ [k] := by
  have hmem : k ∉ m.entries.map Prod.fst := fun hmem => h (has_iff.mpr hmem)
  rw [set, dif_neg hmem, keys, List.map_append]
  rfl

theorem mem_values_replace {l : List (κ × α)} {b : α}
    (hmem : b ∈ (replace k a l).map Prod.snd) : b = a ∨ b ∈ l.map Prod.snd := by
  induction l with
  | nil => cases hmem
  | cons entry l ih =>
      rw [replace, List.map_cons, List.mem_cons] at hmem
      rw [List.map_cons, List.mem_cons]
      rcases hmem with hhead | hrest
      · split_ifs at hhead
        · exact .inl hhead
        · exact .inr (.inl hhead)
      · exact (ih hrest).imp_right .inr

theorem mem_values_set {b : α} (hmem : b ∈ (m.set k a).values) : b = a ∨ b ∈ m.values := by
  rw [set] at hmem
  split at hmem
  case isTrue => exact mem_values_replace hmem
  case isFalse => simpa [values, or_comm] using hmem

theorem values_set_of_not_has (h : ¬ m.has k = true) : (m.set k a).values = m.values ++ [a] := by
  have hmem : k ∉ m.entries.map Prod.fst := fun hmem => h (has_iff.mpr hmem)
  rw [set, dif_neg hmem, values, List.map_append]
  rfl

theorem countP_values_replace {l : List (κ × α)} {b : α} (p : α → Bool)
    (hnodup : (l.map Prod.fst).Nodup) (h : find k l = some b) :
    ((replace k a l).map Prod.snd).countP p + (if p b then 1 else 0) =
      (l.map Prod.snd).countP p + (if p a then 1 else 0) := by
  induction l with
  | nil => cases h
  | cons entry l ih =>
      rw [List.map_cons, List.nodup_cons] at hnodup
      rw [find] at h
      simp only [replace, List.map_cons, List.countP_cons]
      split_ifs at h with hkey
      · -- The key is not there again.
        cases h
        rw [hkey] at hnodup
        have hrest : replace k a l = l := by
          apply replace_of_find_eq_none
          exact find_eq_none.mpr hnodup.1
        rw [if_pos hkey, hrest]
        omega
      · have hrest := ih hnodup.2 h
        rw [if_neg hkey]
        omega

/-- How many values meet a condition, when the value of a key that is there is set. -/
theorem countP_values_set {b : α} (p : α → Bool) (h : m.get k = some b) :
    (m.set k a).values.countP p + (if p b then 1 else 0) =
      m.values.countP p + (if p a then 1 else 0) := by
  have hmem : k ∈ m.entries.map Prod.fst := mem_keys_of_get h
  rw [set, dif_pos hmem]
  exact countP_values_replace p m.nodup h

omit [DecidableEq κ] in
theorem length_values : m.values.length = m.keys.length := by
  simp [values, keys]

omit [DecidableEq κ] in
theorem mem_values_filterKeys {p : κ → Bool} (hmem : a ∈ (m.filterKeys p).values) :
    a ∈ m.values := by
  rcases List.mem_map.mp hmem with ⟨entry, hentry, rfl⟩
  exact List.mem_map.mpr ⟨entry, (List.mem_filter.mp hentry).1, rfl⟩

theorem keys_delete : (m.delete k).keys = m.keys.erase k := by
  have hnodup : m.keys.Nodup := m.nodup
  rw [hnodup.erase_eq_filter]
  simp only [delete, filterKeys, keys, List.filter_map]
  congr 1
  apply List.filter_congr
  intro entry _
  simp [bne, beq_eq_decide]

omit [DecidableEq κ] in
theorem length_keys : m.keys.length = m.entries.length := List.length_map _

/-! ## Sums of values -/

section Sums

variable {m : OrderedMap κ Int} {k : κ} {n : Int}

theorem sum_replace {l : List (κ × Int)} {old : Int} (hnodup : (l.map Prod.fst).Nodup)
    (h : find k l = some old) :
    ((replace k n l).map Prod.snd).sum = (l.map Prod.snd).sum - old + n := by
  induction l with
  | nil => cases h
  | cons entry l ih =>
      rw [List.map_cons, List.nodup_cons] at hnodup
      rw [find] at h
      simp only [replace, List.map_cons, List.sum_cons]
      split_ifs at h with hkey
      · cases h
        rw [hkey] at hnodup
        rw [if_pos hkey, replace_of_find_eq_none (find_eq_none.mpr hnodup.1)]
        omega
      · rw [if_neg hkey, ih hnodup.2 h]
        omega

theorem sum_values_set :
    (m.set k n).values.sum = m.values.sum - (m.get k).getD 0 + n := by
  cases hget : m.get k with
  | none =>
      have hnew : ¬ m.has k = true := by simp [has, hget]
      simp [values_set_of_not_has hnew]
  | some old =>
      have hmem : k ∈ m.entries.map Prod.fst := mem_keys_of_get hget
      rw [set, dif_pos hmem]
      exact sum_replace m.nodup hget

theorem sum_filter_ne {l : List (κ × Int)} (hnodup : (l.map Prod.fst).Nodup) :
    ((l.filter fun entry => entry.1 ≠ k).map Prod.snd).sum =
      (l.map Prod.snd).sum - (find k l).getD 0 := by
  induction l with
  | nil => rfl
  | cons entry l ih =>
      rw [List.map_cons, List.nodup_cons] at hnodup
      rw [find, List.filter_cons]
      by_cases hkey : entry.1 = k
      · rw [hkey] at hnodup
        have hrest := ih hnodup.2
        rw [find_eq_none.mpr hnodup.1] at hrest
        simp only [hkey, ne_eq, not_true_eq_false, decide_false, Bool.false_eq_true, if_false,
          if_true, Option.getD_some, List.map_cons, List.sum_cons]
        rw [Option.getD_none] at hrest
        simp only [ne_eq] at hrest
        omega
      · have hrest := ih hnodup.2
        simp only [hkey, ne_eq, not_false_eq_true, decide_true, if_true, if_false, List.map_cons,
          List.sum_cons] at hrest ⊢
        omega

theorem sum_values_delete : (m.delete k).values.sum = m.values.sum - (m.get k).getD 0 :=
  sum_filter_ne m.nodup

end Sums

end OrderedMap

end CoolOnline
