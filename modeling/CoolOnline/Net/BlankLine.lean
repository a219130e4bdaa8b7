import CoolOnline.Net.HttpHeader
import CoolOnline.Library.Positions

/-! # The blank line behind a header

`findLineBreak` and `findBlankLine` of `net/HttpRequest.cpp` with their offsets: a buffer, where the
search starts and how long the buffer is.
-/

namespace CoolOnline.Http.Offset

open Positions

variable {p : Payload} {off len i j : Nat}

/-- The offset of the first LF from `off` on, or `len`. -/
def findLineBreak (p : Payload) (off len : Nat) : Nat :=
  (firstFrom (fun i => p[i]? = some '\n') len off).getD len

/-- What is found is not in front of the start, and the bytes passed over are no line feeds. -/
theorem findLineBreak_spec (h : off ≤ len) :
    off ≤ findLineBreak p off len ∧
      (findLineBreak p off len < len → p[findLineBreak p off len]? = some '\n') ∧
      ∀ j, off ≤ j → j < findLineBreak p off len → p[j]? ≠ some '\n' := by
  rw [findLineBreak]
  cases hfirst : firstFrom (fun i => p[i]? = some '\n') len off with
  | none =>
      have hnone := firstFrom_eq_none_iff.mp hfirst
      exact ⟨h, fun hlt => absurd hlt (Nat.lt_irrefl _),
        fun j hoff hlt => of_decide_eq_false (hnone j hoff hlt)⟩
  | some l =>
      obtain ⟨hoff, -, hlf, hbefore⟩ := firstFrom_eq_some_iff.mp hfirst
      exact ⟨hoff, fun _ => of_decide_eq_true hlf,
        fun j hoff hlt => of_decide_eq_false (hbefore j hoff hlt)⟩

theorem findLineBreak_le (p : Payload) (off len : Nat) : findLineBreak p off len ≤ len := by
  rw [findLineBreak]
  cases hfirst : firstFrom (fun i => p[i]? = some '\n') len off with
  | none => exact Nat.le_refl len
  | some l => exact Nat.le_of_lt (firstFrom_eq_some_iff.mp hfirst).2.1

/-- The offset of the second LF of the first LF CR LF that the search comes to, or `len`. -/
def findBlankLine (p : Payload) (off len : Nat) : Nat :=
  if h : off < len then
    let lf := findLineBreak p off len
    if lf + 2 ≥ len then len -- Not found.
    else if p[lf + 1]? = some '\r' ∧ p[lf + 2]? = some '\n' then lf + 2
    else findBlankLine p (lf + 3) len -- Skip over the mismatch.
  else len
termination_by len - off
decreasing_by
  have hlf := (findLineBreak_spec (p := p) (Nat.le_of_lt h)).1
  omega

/-! ## What counts for the search -/

/-- A line feed with CR LF behind it, inside of the buffer. -/
def IsBlankLine (p : Payload) (len i : Nat) : Prop :=
  p[i]? = some '\n' ∧ p[i + 1]? = some '\r' ∧ p[i + 2]? = some '\n' ∧ i + 2 < len

instance (p : Payload) (len i : Nat) : Decidable (IsBlankLine p len i) :=
  inferInstanceAs (Decidable (_ ∧ _))

/-- The first one from the start on. -/
structure IsFirst (p : Payload) (off len i : Nat) : Prop where
  start : off ≤ i
  blank : IsBlankLine p len i
  first (j : Nat) (hoff : off ≤ j) (hlt : j < i) : ¬ IsBlankLine p len j

/-- A line feed from the start on counts, unless one of the two bytes before it is one that
counts. -/
def counts (p : Payload) (off : Nat) : Nat → Bool
  | 0 => off ≤ 0 && p[0]? == some '\n'
  | 1 => off ≤ 1 && p[1]? == some '\n' && !counts p off 0
  | i + 2 => off ≤ i + 2 && p[i + 2]? == some '\n' && !counts p off i && !counts p off (i + 1)

theorem counts_iff :
    counts p off i = true ↔
      off ≤ i ∧ p[i]? = some '\n' ∧ ∀ j < i, i ≤ j + 2 → counts p off j = false := by
  match i with
  | 0 => simp [counts]
  | 1 =>
      rw [counts, Bool.and_eq_true, Bool.and_eq_true, decide_eq_true_eq, beq_iff_eq, and_assoc]
      refine and_congr_right fun _ => and_congr_right fun _ => ⟨fun h j hlt _ => ?_, fun h => ?_⟩
      · obtain rfl : j = 0 := by omega
        simpa using h
      · simpa using h 0 (by omega) (by omega)
  | i + 2 =>
      rw [counts, Bool.and_eq_true, Bool.and_eq_true, Bool.and_eq_true, decide_eq_true_eq,
        beq_iff_eq, Bool.not_eq_true', Bool.not_eq_true', and_assoc, and_assoc]
      refine and_congr_right fun _ => and_congr_right fun _ => ⟨fun h j hlt hle => ?_, fun h => ?_⟩
      · obtain rfl | rfl : j = i ∨ j = i + 1 := by omega
        · exact h.1
        · exact h.2
      · exact ⟨h i (by omega) (by omega), h (i + 1) (by omega) (by omega)⟩

theorem not_counts_of_ne (h : p[i]? ≠ some '\n') : counts p off i = false :=
  Bool.eq_false_iff.mpr fun hcounts => h (counts_iff.mp hcounts).2.1

/-- The next line feed counts when none does in the two bytes before the place the search is at. -/
theorem counts_findLineBreak {cur : Nat} (hoff : off ≤ cur)
    (hclear : ∀ j < cur, cur ≤ j + 2 → counts p off j = false) (hcur : cur ≤ len)
    (hlt : findLineBreak p cur len < len) : counts p off (findLineBreak p cur len) = true := by
  obtain ⟨hle, hlf, hbefore⟩ := findLineBreak_spec (p := p) hcur
  refine counts_iff.mpr ⟨hoff.trans hle, hlf hlt, fun j hj hnear => ?_⟩
  by_cases hpassed : cur ≤ j
  case pos => exact not_counts_of_ne (hbefore j hpassed hj)
  case neg => exact hclear j (by omega) (by omega)

/-- The search comes to the line feeds that count, and stops at the first that a blank line is
behind. -/
theorem findBlankLine_spec (p : Payload) (len : Nat) {cur : Nat} (hoff : off ≤ cur)
    (hclear : ∀ j < cur, cur ≤ j + 2 → counts p off j = false) :
    (∃ i, findBlankLine p cur len = i + 2 ∧ cur ≤ i ∧ counts p off i = true ∧
        IsBlankLine p len i ∧
        ∀ j, cur ≤ j → j < i → counts p off j = true → ¬ IsBlankLine p len j) ∨
      findBlankLine p cur len = len ∧
        ∀ j, cur ≤ j → counts p off j = true → ¬ IsBlankLine p len j := by
  induction cur using findBlankLine.induct p len with
  | case1 cur hcur lf hend =>
      obtain ⟨-, -, hbefore⟩ := findLineBreak_spec (p := p) (Nat.le_of_lt hcur)
      right
      rw [findBlankLine, dif_pos hcur, if_pos hend]
      refine ⟨rfl, fun j hj hcounts hblank => ?_⟩
      have hinside := hblank.2.2.2
      exact hbefore j hj (show j < lf by omega) (counts_iff.mp hcounts).2.1
  | case2 cur hcur lf hend hmatch =>
      obtain ⟨hle, hlf, hbefore⟩ := findLineBreak_spec (p := p) (Nat.le_of_lt hcur)
      have hlt : lf < len := by omega
      left
      rw [findBlankLine, dif_pos hcur, if_neg hend, if_pos hmatch]
      refine ⟨lf, rfl, hle, counts_findLineBreak hoff hclear (Nat.le_of_lt hcur) hlt,
        ⟨hlf hlt, hmatch.1, hmatch.2, Nat.lt_of_not_le hend⟩, fun j hj hjlt hcounts => ?_⟩
      exact absurd (counts_iff.mp hcounts).2.1 (hbefore j hj hjlt)
  | case3 cur hcur lf hend hmatch ih =>
      obtain ⟨hle, hlf, hbefore⟩ := findLineBreak_spec (p := p) (Nat.le_of_lt hcur)
      have hlt : lf < len := by omega
      have hcounts := counts_findLineBreak hoff hclear (Nat.le_of_lt hcur) hlt
      -- the two bytes skipped with a line feed that counts are too near to it to count
      have hskipped (j : Nat) (hj : lf < j) (hnear : j ≤ lf + 2) : counts p off j = false := by
        refine Bool.eq_false_iff.mpr fun h => ?_
        rw [(counts_iff.mp h).2.2 lf hj hnear] at hcounts
        cases hcounts
      have hnone (j : Nat) (hj : cur ≤ j) (hjlt : j < lf + 3) (h : counts p off j = true) :
          ¬ IsBlankLine p len j := by
        rcases Nat.lt_trichotomy j lf with hbelow | rfl | habove
        · exact absurd (counts_iff.mp h).2.1 (hbefore j hj hbelow)
        · exact fun hblank => hmatch ⟨hblank.2.1, hblank.2.2.1⟩
        · rw [hskipped j habove (by omega)] at h
          cases h
      rw [findBlankLine, dif_pos hcur, if_neg hend, if_neg hmatch]
      have hnext := ih (by omega) fun j hj hnear => hskipped j (by omega) (by omega)
      rcases hnext with ⟨i, hfound, hstart, hi, hblank, hfirst⟩ | ⟨hfound, hrest⟩
      · refine .inl ⟨i, hfound, by omega, hi, hblank, fun j hj hjlt h => ?_⟩
        rcases Nat.lt_or_ge j (lf + 3) with hbelow | habove
        · exact hnone j hj hbelow h
        · exact hfirst j habove hjlt h
      · refine .inr ⟨hfound, fun j hj h => ?_⟩
        rcases Nat.lt_or_ge j (lf + 3) with hbelow | habove
        · exact hnone j hj hbelow h
        · exact hrest j habove h
  | case4 cur hcur =>
      right
      rw [findBlankLine, dif_neg hcur]
      refine ⟨rfl, fun j hj _ hblank => ?_⟩
      have hinside := hblank.2.2.2
      omega

/-! ## When the search is exact -/

/-- The blank line found is the first from the start on, if there is one. -/
structure Exact (p : Payload) (off len : Nat) : Prop where
  found (i : Nat) (h : IsFirst p off len i) : findBlankLine p off len = i + 2
  missing (h : ∀ i, off ≤ i → ¬ IsBlankLine p len i) : findBlankLine p off len = len

/-- No line feed that counts is in the two bytes before the first blank line. -/
def NoneNear (p : Payload) (off len : Nat) : Prop :=
  ∀ i, IsFirst p off len i → ∀ j < i, i ≤ j + 2 → counts p off j = false

theorem exact_iff (p : Payload) (off len : Nat) : Exact p off len ↔ NoneNear p off len := by
  have hspec := findBlankLine_spec p len (Nat.le_refl off) fun j hj hnear => by
    refine Bool.eq_false_iff.mpr fun h => ?_
    have hstart := (counts_iff.mp h).1
    omega
  constructor
  · intro hexact i hi j hj hnear
    have hfound := hexact.found i hi
    have hinside := hi.blank.2.2.2
    rcases hspec with ⟨k, hk, -, hcounts, hblank, -⟩ | ⟨hlen, -⟩
    · obtain rfl : k = i := by omega
      exact (counts_iff.mp hcounts).2.2 j hj hnear
    · omega
  · intro hnear
    have hcounts (i : Nat) (hi : IsFirst p off len i) : counts p off i = true :=
      counts_iff.mpr ⟨hi.start, hi.blank.1, hnear i hi⟩
    refine ⟨fun i hi => ?_, fun hnone => ?_⟩
    · rcases hspec with ⟨k, hk, hstart, -, hblank, hfirst⟩ | ⟨-, hnone⟩
      · rcases Nat.lt_trichotomy k i with hlt | rfl | hlt
        · exact absurd hblank (hi.first k hstart hlt)
        · exact hk
        · exact absurd hi.blank (hfirst i hi.start hlt (hcounts i hi))
      · exact absurd hi.blank (hnone i hi.start (hcounts i hi))
    · rcases hspec with ⟨k, -, hstart, -, hblank, -⟩ | ⟨hlen, -⟩
      · exact absurd hblank (hnone k hstart)
      · exact hlen

/-- The line feed at the start and another one behind it, which the blank line begins with. -/
theorem not_exact_lineFeeds : ¬ Exact "\n\n\r\n".toList 0 4 := by
  intro hexact
  have hfirst : IsFirst "\n\n\r\n".toList 0 4 1 := by
    refine ⟨by decide, by decide, fun j _ hlt => ?_⟩
    obtain rfl : j = 0 := by omega
    decide
  have hmissed : findBlankLine "\n\n\r\n".toList 0 4 = 4 := by
    rw [findBlankLine, dif_pos (by decide), if_neg (by decide), if_neg (by decide), findBlankLine,
      dif_pos (by decide), if_pos (by decide)]
  exact absurd (hmissed.symm.trans (hexact.found 1 hfirst)) (by decide)

/-! ## The search without offsets -/

theorem findBlankLine_of_length_le (h : p.length ≤ 2) : Http.findBlankLine p = none := by
  match p with
  | [] => rfl
  | [c] => by_cases hc : c = '\n' <;> simp [Http.findBlankLine, hc]
  | [c, d] =>
      by_cases hc : c = '\n' <;> by_cases hd : d = '\n' <;> simp [Http.findBlankLine, hc, hd]
  | _ :: _ :: _ :: _ => simp at h

/-- What is passed over on the way to a line feed is not looked at. -/
theorem findBlankLine_passed {cur : Nat} (hcur : cur ≤ p.length) :
    Http.findBlankLine (p.drop cur) =
      (Http.findBlankLine (p.drop (findLineBreak p cur p.length))).map
        (· + (findLineBreak p cur p.length - cur)) := by
  obtain ⟨hle, -, hbefore⟩ := findLineBreak_spec (p := p) hcur
  have hend := findLineBreak_le p cur p.length
  generalize findLineBreak p cur p.length = lf at hle hbefore hend
  have hline : '\n' ∉ (p.drop cur).take (lf - cur) := by
    intro hmem
    obtain ⟨i, hi⟩ := List.getElem?_of_mem hmem
    have hlt := (List.getElem?_eq_some_iff.mp hi).1
    rw [List.length_take] at hlt
    rw [List.getElem?_take_of_lt (by omega), List.getElem?_drop] at hi
    exact hbefore (cur + i) (by omega) (by omega) hi
  have hsplit : p.drop cur = (p.drop cur).take (lf - cur) ++ p.drop lf := by
    rw [← Nat.add_sub_cancel' hle, ← List.drop_drop, Nat.add_sub_cancel_left,
      List.take_append_drop]
  have hlength : ((p.drop cur).take (lf - cur)).length = lf - cur := by
    rw [List.length_take, List.length_drop]
    omega
  rw [hsplit, findBlankLine_append_line hline, hlength]

/-- From a place in the buffer on, the search is that in what is behind it. -/
theorem findBlankLine_drop (p : Payload) {cur : Nat} (hcur : cur ≤ p.length) :
    findBlankLine p cur p.length =
      ((Http.findBlankLine (p.drop cur)).map (· + cur)).getD p.length := by
  induction cur using findBlankLine.induct p p.length with
  | case1 cur hlt lf hend =>
      have hnone : Http.findBlankLine (p.drop lf) = none := by
        apply findBlankLine_of_length_le
        rw [List.length_drop]
        omega
      rw [findBlankLine, dif_pos hlt, if_pos hend, findBlankLine_passed hcur, hnone]
      rfl
  | case2 cur hlt lf hend hmatch =>
      obtain ⟨hle, hlf, -⟩ := findLineBreak_spec (p := p) hcur
      have hrest : p.drop lf = '\n' :: '\r' :: '\n' :: p.drop (lf + 3) := by
        rw [List.drop_eq_getElem?_toList_append, hlf (by omega),
          List.drop_eq_getElem?_toList_append, hmatch.1, List.drop_eq_getElem?_toList_append,
          hmatch.2]
        rfl
      have hfound : Http.findBlankLine (p.drop lf) = some 2 := by
        rw [hrest, Http.findBlankLine, if_pos rfl]
        rfl
      rw [findBlankLine, dif_pos hlt, if_neg hend, if_pos hmatch, findBlankLine_passed hcur, hfound]
      simp only [Option.map_some, Option.getD_some]
      omega
  | case3 cur hlt lf hend hmatch ih =>
      obtain ⟨hle, hlf, -⟩ := findLineBreak_spec (p := p) hcur
      obtain ⟨hinside, hlf⟩ := List.getElem?_eq_some_iff.mp (hlf (by omega))
      have hrest : p.drop lf = '\n' :: p[lf + 1] :: p[lf + 2] :: p.drop (lf + 3) := by
        rw [List.drop_eq_getElem_cons hinside, hlf, List.drop_eq_getElem_cons (by omega),
          List.drop_eq_getElem_cons (by omega)]
      have hnot : ¬ (p[lf + 1] = '\r' ∧ p[lf + 2] = '\n') := by
        rwa [List.getElem?_eq_getElem (by omega), List.getElem?_eq_getElem (by omega),
          Option.some.injEq, Option.some.injEq] at hmatch
      have hskip : Http.findBlankLine (p.drop lf) =
          (Http.findBlankLine (p.drop (lf + 3))).map (· + 3) := by
        rw [hrest, Http.findBlankLine, if_pos rfl]
        exact if_neg hnot
      rw [findBlankLine, dif_pos hlt, if_neg hend, if_neg hmatch, ih (by omega),
        findBlankLine_passed hcur, hskip, Option.map_map, Option.map_map]
      congr 2
      funext n
      simp only [Function.comp_apply]
      omega
  | case4 cur hlt =>
      obtain rfl : cur = p.length := by omega
      rw [findBlankLine, dif_neg hlt, List.drop_length]
      rfl

end CoolOnline.Http.Offset
