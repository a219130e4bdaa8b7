import Mathlib.Algebra.Order.Ring.Int
import Mathlib.Order.Defs.LinearOrder

/-! # Binary search

A search over an array that is told at each place where to go on, and which goes back from where it
ends to the first of the places next to each other that match.
-/

namespace CoolOnline.BinarySearch

/-- The search from `start` to in front of `finish`. -/
def bisect (direction : Nat → Ordering) : Nat → Nat → Nat → Option Nat
  | 0, _, _ => none
  | fuel + 1, start, finish =>
      if start < finish then
        let mid := (start + finish) / 2
        match direction mid with
        | .eq => some mid
        | .lt => bisect direction fuel start mid
        | .gt => bisect direction fuel (mid + 1) finish
      else none

/-- The first of the matches that end at a place. -/
def firstMatchFrom (direction : Nat → Ordering) : Nat → Nat
  | 0 => 0
  | i + 1 => if direction i = .eq then firstMatchFrom direction i else i + 1

/-- The ends are looked at first. -/
def search (direction : Nat → Ordering) (length : Nat) (firstMatch : Bool) : Option Nat :=
  let first := fun i => if firstMatch then firstMatchFrom direction i else i
  if length = 0 then none
  else
    match direction 0 with
    | .eq => some 0
    | .lt => none
    | .gt =>
        match direction (length - 1) with
        | .gt => none
        | .eq => some (first (length - 1))
        | .lt => (bisect direction length 0 length).map first

/-- In front of a place that is too large nothing is too small, and the other way round. -/
structure Directed (direction : Nat → Ordering) (length : Nat) : Prop where
  lt_of_lt {i j : Nat} (hij : i ≤ j) (hj : j < length) (h : direction i = .lt) : direction j = .lt
  gt_of_gt {i j : Nat} (hij : i ≤ j) (hj : j < length) (h : direction j = .gt) : direction i = .gt

variable {direction : Nat → Ordering} {length fuel start finish i k : Nat} {firstMatch : Bool}

theorem bisect_eq_some (h : bisect direction fuel start finish = some k) :
    k < finish ∧ direction k = .eq := by
  induction fuel generalizing start finish with
  | zero => cases h
  | succ fuel ih =>
      rw [bisect] at h
      split at h
      case isFalse => cases h
      case isTrue hlt =>
        simp only at h
        split at h
        case h_1 heq =>
          cases h
          exact ⟨by omega, heq⟩
        case h_2 =>
          have hk := ih h
          exact ⟨by omega, hk.2⟩
        case h_3 => exact ih h

/-- A match stays between the ends. -/
theorem bisect_isSome (hdir : Directed direction length) (hfinish : finish ≤ length)
    (hstart : start ≤ i) (hi : i < finish) (heq : direction i = .eq)
    (hfuel : finish - start ≤ fuel) : (bisect direction fuel start finish).isSome = true := by
  induction fuel generalizing start finish with
  | zero => omega
  | succ fuel ih =>
      rw [bisect, if_pos (by omega)]
      simp only
      cases hmid : direction ((start + finish) / 2) with
      | eq => rfl
      | lt =>
          have hlt : i < (start + finish) / 2 := by
            by_contra hge
            have hi := hdir.lt_of_lt (Nat.le_of_not_lt hge) (by omega) hmid
            rw [heq] at hi
            cases hi
          exact ih (by omega) hstart hlt (by omega)
      | gt =>
          have hgt : (start + finish) / 2 < i := by
            by_contra hge
            have hi := hdir.gt_of_gt (Nat.le_of_not_lt hge) (by omega) hmid
            rw [heq] at hi
            cases hi
          exact ih hfinish hgt hi (by omega)

theorem direction_firstMatchFrom (h : direction k = .eq) :
    direction (firstMatchFrom direction k) = .eq ∧ firstMatchFrom direction k ≤ k := by
  induction k with
  | zero => exact ⟨h, Nat.le_refl 0⟩
  | succ k ih =>
      rw [firstMatchFrom]
      split
      case isTrue heq => exact ⟨(ih heq).1, Nat.le_succ_of_le (ih heq).2⟩
      case isFalse => exact ⟨h, Nat.le_refl _⟩

/-- What is found is a match. -/
theorem search_eq_some (h : search direction length firstMatch = some k) :
    k < length ∧ direction k = .eq := by
  have hfirst : ∀ j, j < length → direction j = .eq →
      (if firstMatch then firstMatchFrom direction j else j) < length ∧
        direction (if firstMatch then firstMatchFrom direction j else j) = .eq := by
    intro j hj heq
    have hmatch := direction_firstMatchFrom heq
    split
    · exact ⟨Nat.lt_of_le_of_lt hmatch.2 hj, hmatch.1⟩
    · exact ⟨hj, heq⟩
  rw [search] at h
  simp only at h
  split at h
  case isTrue => cases h
  case isFalse hlength =>
    split at h
    case h_1 heq =>
      cases h
      exact ⟨Nat.pos_of_ne_zero hlength, heq⟩
    case h_2 => cases h
    case h_3 =>
      split at h
      case h_1 => cases h
      case h_2 heq =>
        cases h
        exact hfirst _ (by omega) heq
      case h_3 =>
        rcases Option.map_eq_some_iff.mp h with ⟨j, hj, rfl⟩
        exact hfirst j (bisect_eq_some hj).1 (bisect_eq_some hj).2

/-- If there is a match, one is found. -/
theorem search_isSome (hdir : Directed direction length) (hi : i < length)
    (heq : direction i = .eq) : (search direction length firstMatch).isSome = true := by
  rw [search]
  simp only
  rw [if_neg (by omega)]
  cases hzero : direction 0 with
  | eq => rfl
  | lt =>
      have hlt := hdir.lt_of_lt (Nat.zero_le i) hi hzero
      rw [heq] at hlt
      cases hlt
  | gt =>
      simp only
      cases hlast : direction (length - 1) with
      | eq => rfl
      | gt =>
          have hgt := hdir.gt_of_gt (Nat.le_sub_one_of_lt hi) (by omega) hlast
          rw [heq] at hgt
          cases hgt
      | lt =>
          simp only [Option.isSome_map]
          exact bisect_isSome hdir (Nat.le_refl _) (Nat.zero_le i) hi heq (Nat.le_refl _)

/-- The only match is found. -/
theorem search_eq_of_unique (hdir : Directed direction length) (hi : i < length)
    (heq : direction i = .eq) (hunique : ∀ j < length, direction j = .eq → j = i) :
    search direction length firstMatch = some i := by
  rcases Option.isSome_iff_exists.mp (search_isSome hdir hi heq) with ⟨k, hk⟩
  have hmatch := search_eq_some hk
  rw [hk, hunique k hmatch.1 hmatch.2]

theorem search_eq_none (h : ∀ j < length, direction j ≠ .eq) :
    search direction length firstMatch = none := by
  cases hk : search direction length firstMatch with
  | none => rfl
  | some k => exact absurd (search_eq_some hk).2 (h k (search_eq_some hk).1)

theorem Directed.congr {other : Nat → Ordering} (hdir : Directed other length)
    (h : ∀ j < length, direction j = other j) : Directed direction length := by
  constructor
  · intro i j hij hj hlt
    rw [h i (by omega)] at hlt
    rw [h j hj]
    exact hdir.lt_of_lt hij hj hlt
  · intro i j hij hj hgt
    rw [h j hj] at hgt
    rw [h i (by omega)]
    exact hdir.gt_of_gt hij hj hgt

/-! ## Intervals one behind the other -/

section Intervals

variable {β : Type*} [LinearOrder β]

/-- Where a value is with respect to the interval of a place. -/
def side (lower upper : Nat → β) (value : β) (i : Nat) : Ordering :=
  if value < lower i then .lt else if upper i < value then .gt else .eq

variable {lower upper : Nat → β} {value : β}

theorem side_eq_iff : side lower upper value i = .eq ↔ lower i ≤ value ∧ value ≤ upper i := by
  rw [side]
  split
  case isTrue h => simp [not_le.mpr h]
  case isFalse h =>
    rw [not_lt] at h
    split
    case isTrue hupper => simp [not_le.mpr hupper]
    case isFalse hupper => simp [h, not_lt.mp hupper]

theorem directed_side (hlower : ∀ i j, i ≤ j → j < length → lower i ≤ lower j)
    (hupper : ∀ i j, i ≤ j → j < length → upper i ≤ upper j) :
    Directed (side lower upper value) length := by
  constructor
  · intro i j hij hj h
    have hlt : value < lower i := by
      by_contra hge
      rw [side, if_neg hge] at h
      split at h <;> cases h
    rw [side, if_pos (lt_of_lt_of_le hlt (hlower i j hij hj))]
  · intro i j hij hj h
    have hge : ¬ value < lower j := by
      intro hlt
      rw [side, if_pos hlt] at h
      cases h
    have hgt : upper j < value := by
      by_contra hle
      rw [side, if_neg hge, if_neg hle] at h
      cases h
    rw [side, if_neg fun hlt => hge (lt_of_lt_of_le hlt (hlower i j hij hj)),
      if_pos (lt_of_le_of_lt (hupper i j hij hj) hgt)]

/-- In intervals that do not meet, the search finds the one that the value is in. -/
theorem search_eq_of_mem (h : ∀ j < length, direction j = side lower upper value j)
    (hlower : ∀ i j, i ≤ j → j < length → lower i ≤ lower j)
    (hupper : ∀ i j, i ≤ j → j < length → upper i ≤ upper j)
    (hdisjoint : ∀ i j, i < j → j < length → upper i < lower j) (hi : i < length)
    (hle : lower i ≤ value) (hge : value ≤ upper i) :
    search direction length firstMatch = some i := by
  have hdir : Directed direction length := (directed_side hlower hupper).congr h
  have heq : direction i = .eq := by
    rw [h i hi]
    exact side_eq_iff.mpr ⟨hle, hge⟩
  refine search_eq_of_unique hdir hi heq fun j hj hmatch => ?_
  rw [h j hj] at hmatch
  have hbounds := side_eq_iff.mp hmatch
  rcases Nat.lt_trichotomy j i with hlt | hij | hgt
  · exact absurd (lt_of_lt_of_le (hdisjoint j i hlt hi) hle) (not_lt.mpr hbounds.2)
  · exact hij
  · exact absurd (lt_of_lt_of_le (hdisjoint i j hgt hj) hbounds.1) (not_lt.mpr hge)

theorem search_eq_none_of_not_mem (h : ∀ j < length, direction j = side lower upper value j)
    (hout : ∀ j < length, lower j ≤ value → upper j < value) :
    search direction length firstMatch = none := by
  refine search_eq_none fun j hj hmatch => ?_
  rw [h j hj] at hmatch
  have hbounds := side_eq_iff.mp hmatch
  exact absurd (hout j hj hbounds.1) (not_lt.mpr hbounds.2)

end Intervals

end CoolOnline.BinarySearch
