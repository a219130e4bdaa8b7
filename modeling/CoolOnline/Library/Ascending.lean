import Mathlib.Order.Lattice
import Mathlib.Data.List.Pairwise
import Mathlib.Data.List.InsertIdx

/-! # Lists that ascend by a key

Lists whose keys do not decrease, in which the keys may change, and the place where an element is
put in them, as a binary search finds it.
-/

namespace CoolOnline

variable {α κ : Type*} [LinearOrder κ]

def Ascending (key : α → κ) (l : List α) : Prop := l.Pairwise fun a b => key a ≤ key b

namespace Ascending

variable {key key' : α → κ} {l l' : List α} {a b : α} {k : κ} {low high i j : Nat}

/-- Taking elements out keeps the order, where the keys of the others stay. -/
theorem of_sublist (h : Ascending key l) (hsub : l'.Sublist l)
    (hkey : ∀ a ∈ l', key' a = key a) : Ascending key' l' := by
  have hrest : Ascending key l' := List.Pairwise.sublist hsub h
  apply List.Pairwise.imp_of_mem _ hrest
  intro a b ha hb hab
  rw [hkey a ha, hkey b hb]
  exact hab

theorem le_of_getElem? (h : Ascending key l) (ha : l[i]? = some a) (hb : l[j]? = some b)
    (hij : i ≤ j) : key a ≤ key b := by
  rcases List.getElem?_eq_some_iff.mp ha with ⟨hi, rfl⟩
  rcases List.getElem?_eq_some_iff.mp hb with ⟨hj, rfl⟩
  rcases Nat.lt_or_eq_of_le hij with hlt | rfl
  · exact List.pairwise_iff_getElem.mp h i j hi hj hlt
  · exact le_refl _

/-- The last element has the largest key. -/
theorem le_getLast (h : Ascending key l) (hlast : l.getLast? = some b) (ha : a ∈ l) :
    key a ≤ key b := by
  rcases List.mem_iff_getElem?.mp ha with ⟨i, hi⟩
  rw [List.getLast?_eq_getElem?] at hlast
  have hlt := (List.getElem?_eq_some_iff.mp hi).1
  exact h.le_of_getElem? hi hlast (by omega)

/-- The key of one element goes down, as far as those before it let it. -/
theorem lower [DecidableEq α] (h : Ascending key l) (hnodup : l.Nodup) (ha : key' a ≤ key a)
    (hrest : ∀ b ∈ l, b ≠ a → key' b = key b)
    (hbefore : ∀ b ∈ l.takeWhile (· ≠ a), key b ≤ key' a) : Ascending key' l := by
  induction l with
  | nil => exact List.Pairwise.nil
  | cons b l ih =>
      rcases List.pairwise_cons.mp h with ⟨hb, hl⟩
      rcases List.nodup_cons.mp hnodup with ⟨hnot, hnodup⟩
      apply List.pairwise_cons.mpr
      by_cases hba : b = a
      · subst hba
        have hsame : ∀ c ∈ l, key' c = key c := fun c hc =>
          hrest c (List.mem_cons_of_mem _ hc) (ne_of_mem_of_not_mem hc hnot)
        refine ⟨?_, of_sublist hl (List.Sublist.refl l) hsame⟩
        intro c hc
        rw [hsame c hc]
        exact ha.trans (hb c hc)
      · rw [List.takeWhile_cons_of_pos (by simpa using hba)] at hbefore
        constructor
        · intro c hc
          rw [hrest b List.mem_cons_self hba]
          by_cases hca : c = a
          · subst hca
            exact hbefore b List.mem_cons_self
          · rw [hrest c (List.mem_cons_of_mem _ hc) hca]
            exact hb c hc
        · apply ih hl hnodup
          · exact fun c hc => hrest c (List.mem_cons_of_mem _ hc)
          · exact fun c hc => hbefore c (List.mem_cons_of_mem _ hc)

/-- All that is before `low` is less than a key, and what is from `high` on is not. -/
structure Bounds (key : α → κ) (l : List α) (k : κ) (low high : Nat) : Prop where
  low_le : low ≤ high
  high_le : high ≤ l.length
  before : ∀ i a, l[i]? = some a → i < low → key a < k
  behind : ∀ i a, l[i]? = some a → high ≤ i → k ≤ key a

theorem bounds_all (key : α → κ) (l : List α) (k : κ) : Bounds key l k 0 l.length where
  low_le := Nat.zero_le _
  high_le := Nat.le_refl _
  before _ _ _ hi := absurd hi (Nat.not_lt_zero _)
  behind _ _ hi hle := absurd (List.getElem?_eq_some_iff.mp hi).1 (Nat.not_lt.mpr hle)

/-- A turn of a binary search whose middle is less. -/
theorem Bounds.above (h : Bounds key l k low high) (hl : Ascending key l) (hj : j < high)
    (ha : l[j]? = some a) (hlt : key a < k) : Bounds key l k (j + 1) high where
  low_le := hj
  high_le := h.high_le
  before _ _ hi hij := (hl.le_of_getElem? hi ha (Nat.lt_succ_iff.mp hij)).trans_lt hlt
  behind := h.behind

/-- A turn of a binary search whose middle is not less. -/
theorem Bounds.below (h : Bounds key l k low high) (hl : Ascending key l) (hj : j < high)
    (hlow : low ≤ j) (ha : l[j]? = some a) (hle : k ≤ key a) : Bounds key l k low j where
  low_le := hlow
  high_le := hj.le.trans h.high_le
  before := h.before
  behind _ _ hi hij := hle.trans (hl.le_of_getElem? ha hi hij)

/-- An element is put where the search ends. -/
theorem insertIdx (h : Ascending key l) (hi : Bounds key l (key a) i i) :
    Ascending key (l.insertIdx i a) := by
  induction l generalizing i with
  | nil =>
      have hzero : i = 0 := Nat.le_zero.mp hi.high_le
      rw [hzero, List.insertIdx_zero]
      exact List.pairwise_singleton _ _
  | cons b l ih =>
      rcases List.pairwise_cons.mp h with ⟨hb, hl⟩
      cases i with
      | zero =>
          rw [List.insertIdx_zero]
          apply List.pairwise_cons.mpr
          refine ⟨?_, h⟩
          intro c hc
          rcases List.mem_iff_getElem?.mp hc with ⟨j, hj⟩
          exact hi.behind j c hj (Nat.zero_le j)
      | succ i =>
          rw [List.insertIdx_succ_cons]
          apply List.pairwise_cons.mpr
          constructor
          · intro c hc
            rcases List.eq_or_mem_of_mem_insertIdx hc with rfl | hc
            · exact (hi.before 0 b rfl (Nat.succ_pos i)).le
            · exact hb c hc
          · apply ih hl
            exact {
              low_le := Nat.le_refl i
              high_le := Nat.le_of_succ_le_succ hi.high_le
              before := fun j c hj hji => hi.before (j + 1) c hj (Nat.succ_lt_succ hji)
              behind := fun j c hj hij => hi.behind (j + 1) c hj (Nat.succ_le_succ hij) }

end Ascending

end CoolOnline
