import Mathlib.Data.List.Basic
import Mathlib.Data.List.Infix
import Mathlib.Data.List.TakeWhile

/-! # First positions

The first position from a start on that has a property, and what is found so in a text: a word, or
one of some characters.
-/

namespace CoolOnline.Positions

/-- The first position from `start` on and in front of `n`. -/
def firstFrom (p : Nat → Bool) (n start : Nat) : Option Nat :=
  (List.range' start (n - start)).find? p

section

variable {p : Nat → Bool} {n start i : Nat}

theorem firstFrom_eq_some_iff :
    firstFrom p n start = some i ↔
      start ≤ i ∧ i < n ∧ p i = true ∧ ∀ j, start ≤ j → j < i → p j = false := by
  rw [firstFrom, List.find?_range'_eq_some]
  simp only [List.mem_range'_1, Bool.not_eq_true']
  constructor
  · intro h
    obtain ⟨hp, hrange, hfirst⟩ := h
    exact ⟨hrange.1, by omega, hp, hfirst⟩
  · intro h
    obtain ⟨hstart, hn, hp, hfirst⟩ := h
    exact ⟨hp, ⟨hstart, by omega⟩, hfirst⟩

theorem firstFrom_eq_none_iff :
    firstFrom p n start = none ↔ ∀ j, start ≤ j → j < n → p j = false := by
  rw [firstFrom, List.find?_range'_eq_none]
  simp only [Bool.not_eq_true']
  constructor
  · intro h j hstart hn
    exact h j hstart (by omega)
  · intro h j hstart hn
    exact h j hstart (by omega)

end

section

variable {α : Type*} [DecidableEq α] {text word chars : List α} {start i : Nat}

/-- `find` of a string. -/
def find (text word : List α) (start : Nat) : Option Nat :=
  firstFrom (fun i => word.isPrefixOf (text.drop i)) (text.length + 1) start

/-- `find_first_of` of a string. -/
def findFirstOf (text chars : List α) (start : Nat) : Option Nat :=
  firstFrom (fun i => text[i]?.any (· ∈ chars)) text.length start

theorem find_eq_some (h : find text word start = some i) :
    start ≤ i ∧ i + word.length ≤ text.length ∧ word <+: text.drop i ∧
      ∀ j, start ≤ j → j < i → ¬ word <+: text.drop j := by
  obtain ⟨hstart, hle, hword, hfirst⟩ := firstFrom_eq_some_iff.mp h
  have hword := List.isPrefixOf_iff_prefix.mp hword
  have hlength := hword.length_le
  rw [List.length_drop] at hlength
  refine ⟨hstart, by omega, hword, fun j hj hlt hother => ?_⟩
  have hnot := hfirst j hj hlt
  rw [List.isPrefixOf_iff_prefix.mpr hother] at hnot
  cases hnot

theorem find_eq_none (h : find text word start = none) {j : Nat} (hstart : start ≤ j)
    (hle : j ≤ text.length) : ¬ word <+: text.drop j := by
  intro hword
  have hnot := firstFrom_eq_none_iff.mp h j hstart (Nat.lt_succ_of_le hle)
  rw [List.isPrefixOf_iff_prefix.mpr hword] at hnot
  cases hnot

/-- The empty word is everywhere. -/
theorem find_nil_zero (text : List α) : find text [] 0 = some 0 :=
  firstFrom_eq_some_iff.mpr
    ⟨Nat.le_refl _, Nat.succ_pos _, rfl, fun j _ hj => absurd hj (Nat.not_lt_zero j)⟩

theorem findFirstOf_eq_some (h : findFirstOf text chars start = some i) :
    start ≤ i ∧ (∃ c ∈ chars, text[i]? = some c) ∧
      ∀ j c, start ≤ j → j < i → text[j]? = some c → c ∉ chars := by
  obtain ⟨hstart, hlt, hchar, hfirst⟩ := firstFrom_eq_some_iff.mp h
  obtain ⟨c, hc, hmem⟩ : ∃ c, text[i]? = some c ∧ c ∈ chars := by
    cases hc : text[i]? with
    | none => simp [hc] at hchar
    | some c => exact ⟨c, rfl, by simpa [hc] using hchar⟩
  refine ⟨hstart, ⟨c, hmem, hc⟩, fun j c hj hlt hc hmem => ?_⟩
  have hnot := hfirst j hj hlt
  simp [hc, hmem] at hnot

theorem findFirstOf_eq_some_iff :
    findFirstOf text chars start = some i ↔ start ≤ i ∧ (∃ c ∈ chars, text[i]? = some c) ∧
      ∀ j c, start ≤ j → j < i → text[j]? = some c → c ∉ chars := by
  refine ⟨findFirstOf_eq_some, fun h => ?_⟩
  obtain ⟨hstart, ⟨c, hmem, hc⟩, hfirst⟩ := h
  have hlt := (List.getElem?_eq_some_iff.mp hc).1
  refine firstFrom_eq_some_iff.mpr ⟨hstart, hlt, by simp [hc, hmem], fun j hj hji => ?_⟩
  have hat := List.getElem?_eq_getElem (hji.trans hlt)
  simp [hat, hfirst j _ hj hji hat]

theorem findFirstOf_eq_none (h : findFirstOf text chars start = none) {j : Nat} {c : α}
    (hstart : start ≤ j) (hc : text[j]? = some c) : c ∉ chars := by
  intro hmem
  have hlt := (List.getElem?_eq_some_iff.mp hc).1
  have hnot := firstFrom_eq_none_iff.mp h j hstart hlt
  simp [hc, hmem] at hnot

/-- A position with one of the characters is not in front of the first one. -/
theorem exists_findFirstOf {j : ℕ} {c : α} (hstart : start ≤ j) (hc : text[j]? = some c)
    (hmem : c ∈ chars) : ∃ i, findFirstOf text chars start = some i ∧ i ≤ j := by
  cases hfind : findFirstOf text chars start with
  | none => exact absurd hmem (findFirstOf_eq_none hfind hstart hc)
  | some i =>
      refine ⟨i, rfl, Nat.le_of_not_lt fun hlt => ?_⟩
      exact (findFirstOf_eq_some hfind).2.2 j c hstart hlt hc hmem

theorem findFirstOf_succ {c : α} (hc : text[start]? = some c) (hnot : c ∉ chars) :
    findFirstOf text chars start = findFirstOf text chars (start + 1) := by
  have hlt := (List.getElem?_eq_some_iff.mp hc).1
  have hrange : List.range' start (text.length - start) =
      start :: List.range' (start + 1) (text.length - (start + 1)) := by
    rw [show text.length - start = text.length - (start + 1) + 1 by omega, List.range'_succ]
  rw [findFirstOf, firstFrom, hrange, List.find?_cons_of_neg (by simp [hc, hnot])]
  rfl

/-- The text from the start up to the first of the characters, or to the end. -/
theorem take_findFirstOf (start : Nat) :
    (text.drop start).take ((findFirstOf text chars start).getD text.length - start) =
      (text.drop start).takeWhile (· ∉ chars) := by
  cases hfind : findFirstOf text chars start with
  | none =>
      rw [Option.getD_none, ← List.length_drop, List.take_length, eq_comm,
        List.takeWhile_eq_self_iff]
      intro c hc
      obtain ⟨i, hi⟩ := List.getElem?_of_mem hc
      rw [List.getElem?_drop] at hi
      exact decide_eq_true (findFirstOf_eq_none hfind (Nat.le_add_right _ _) hi)
  | some stop =>
      obtain ⟨hstart, hstop, hbefore⟩ := findFirstOf_eq_some hfind
      obtain ⟨c, hc, hat⟩ := hstop
      have hrest : (text.drop start).drop (stop - start) = c :: text.drop (stop + 1) := by
        rw [List.drop_drop, Nat.add_sub_cancel' hstart]
        exact List.drop_eq_getElem?_toList_append ▸ by simp [hat]
      have hall : ∀ c ∈ (text.drop start).take (stop - start), decide (c ∉ chars) = true := by
        intro c hc
        obtain ⟨i, hi⟩ := List.getElem?_of_mem hc
        have hlt := (List.getElem?_eq_some_iff.mp hi).1
        rw [List.length_take] at hlt
        rw [List.getElem?_take_of_lt (by omega), List.getElem?_drop] at hi
        exact decide_eq_true (hbefore _ _ (Nat.le_add_right _ _) (by omega) hi)
      conv_rhs => rw [← List.take_append_drop (stop - start) (text.drop start), hrest]
      rw [Option.getD_some, List.takeWhile_append_of_pos hall,
        List.takeWhile_cons_of_neg (by simpa using hc), List.append_nil]

end

end CoolOnline.Positions
