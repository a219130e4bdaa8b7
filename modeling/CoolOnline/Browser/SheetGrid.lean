import CoolOnline.Browser.SheetDimension

/-! # The grid lines of a pixel range

`forEachInCorePixelRange` of `browser/src/layer/tile/SheetGeometry.ts`. Each span steps over its own
lines, from its first line in the range to its last. Pixels are exact numbers.
-/

namespace CoolOnline

open Run

namespace SheetGeometry

open SpanList

/-- `%` on numbers, with the sign of the dividend. -/
def remainder (a b : ℚ) : ℚ := a - b * (if 0 ≤ a / b then ⌊a / b⌋ else ⌈a / b⌉ : Int)

namespace SheetDimension

/-- The loop from a position and an index on, for so many steps. -/
def gridLines (sizecore last : ℚ) : Nat → ℚ → Int → Option (List (ℚ × Int))
  | 0, _, _ => none
  | fuel + 1, pos, index =>
      if pos ≤ last then
        (gridLines sizecore last fuel (pos + sizecore) (index + 1)).map ((pos, index) :: ·)
      else some []

def spanFirstCorePx (spanData : SpanViewData) : Int :=
  spanData.data.poscorepx -
    spanData.data.sizecore * ((spanData.finish : Int) - spanData.start + 1)

/-- The callbacks of a span. -/
def gridLinesOfSpan (fuel : Nat) (startPix endPix : ℚ) (spanData : SpanViewData) :
    Option (List (ℚ × Int)) :=
  let spanFirst : ℚ := spanFirstCorePx spanData
  let sizecore : ℚ := spanData.data.sizecore
  if spanFirst < endPix ∧ startPix < spanData.data.poscorepx then
    -- A remainder by 0 is not a number, which no position is at or in front of.
    if sizecore = 0 then some []
    else
      let firstCorePx :=
        max spanFirst (startPix + sizecore - remainder (startPix - spanFirst) sizecore)
      let lastCorePx := min endPix spanData.data.poscorepx
      gridLines sizecore lastCorePx fuel firstCorePx
        (spanData.start + ⌊(firstCorePx - spanFirst) / sizecore⌋)
  else some []

def forEachInCorePixelRange (fuel : Nat) (dim : SheetDimension) (startPix endPix : ℚ) :
    Option (List (ℚ × Int)) :=
  ((forEachSpan dim.visibleSizes).mapM (gridLinesOfSpan fuel startPix endPix)).map List.flatten

variable {dim : SheetDimension} {startPix endPix : ℚ}

/-- The line at the end of an element, with the element behind it. -/
def lineBehind (dim : SheetDimension) (startPix endPix : ℚ) (k : Nat) : Option (ℚ × Int) :=
  if 0 < dim.sizeOf .corepixels k ∧ startPix < dim.startPos .corepixels (k + 1) ∧
      dim.startPos .corepixels (k + 1) ≤ endPix then
    some (dim.startPos .corepixels (k + 1), k + 1)
  else none

/-- The lines are the ends of the visible elements in the range, from the first to the last. -/
def LinesOnce (dim : SheetDimension) (startPix endPix : ℚ) (calls : List (ℚ × Int)) : Prop :=
  calls.Pairwise (·.1 < ·.1) ∧
    ∀ call, call ∈ calls ↔ ∃ k < dim.elementCount, lineBehind dim startPix endPix k = some call

/-- The loops come to an end, and the lines that they draw are the right ones. -/
def DrawsLinesOnce (dim : SheetDimension) (startPix endPix : ℚ) : Prop :=
  ∃ calls, (∃ n, ∀ fuel ≥ n, forEachInCorePixelRange fuel dim startPix endPix = some calls) ∧
    LinesOnce dim startPix endPix calls

/-! ## The loop of a span -/

section Loop

variable {f : Nat → ℚ} {c last : ℚ} {k m n : Nat}

/-- From the end of one element on, the ends of those that are still in the range. -/
theorem gridLines_eq (hstep : ∀ j, f (j + 1) = f j + c) (hc : 0 < c) {fuel : Nat}
    (hfuel : m < fuel) :
    gridLines c (min endPix (f (k + m))) fuel (f (k + 1)) (k + 1) =
      some ((List.range' k m).filterMap fun j =>
        if f (j + 1) ≤ endPix then some (f (j + 1), (j : Int) + 1) else none) := by
  have hmono : Monotone f := monotone_nat_of_le_succ fun j => by
    rw [hstep]
    exact (lt_add_of_pos_right _ hc).le
  induction m generalizing k fuel with
  | zero =>
      cases fuel with
      | zero => omega
      | succ fuel =>
          have hgt : ¬ f (k + 1) ≤ min endPix (f (k + 0)) := by
            rw [hstep, not_le]
            exact lt_of_le_of_lt (min_le_right _ _) (lt_add_of_pos_right _ hc)
          rw [gridLines, if_neg hgt]
          rfl
  | succ m ih =>
      cases fuel with
      | zero => omega
      | succ fuel =>
          have hlast : f (k + 1) ≤ f (k + (m + 1)) := hmono (by omega)
          have hnext : k + (m + 1) = k + 1 + m := by omega
          rw [gridLines, List.range'_succ, List.filterMap_cons]
          by_cases hle : f (k + 1) ≤ endPix
          · have hrest := @ih (k + 1) fuel (by omega)
            rw [Nat.cast_succ] at hrest
            rw [if_pos (le_min hle hlast), if_pos hle, ← hstep, hnext, hrest]
            rfl
          · -- No later end is in the range either.
            have hbeyond : ∀ j ∈ List.range' (k + 1) m,
                (if f (j + 1) ≤ endPix then some (f (j + 1), (j : Int) + 1) else none) = none := by
              intro j hj
              have hkj := (List.mem_range'_1.mp hj).1
              exact if_neg fun h => hle ((hmono (by omega)).trans h)
            rw [if_neg fun h => hle (h.trans (min_le_left _ _)), if_neg hle]
            exact congrArg some (List.filterMap_eq_nil_iff.mpr hbeyond).symm

/-- Where the loop of a span begins: at its first end behind `startPix`, or at the span's own start
when that is a step or more behind it. -/
theorem firstCorePx_eq (first startPix : ℚ) (hc : 0 < c) :
    ∃ j : Nat, max first (startPix + c - remainder (startPix - first) c) = first + c * j ∧
      (j = 0 ↔ startPix + c ≤ first) ∧ startPix < first + c * j ∧
      ∀ i < j, 0 < i → first + c * i ≤ startPix := by
  have hdiv : c * ((startPix - first) / c) = startPix - first := mul_div_cancel₀ _ hc.ne'
  by_cases hnonneg : 0 ≤ (startPix - first) / c
  · -- The range begins behind the start of the span.
    have hfloor : 0 ≤ ⌊(startPix - first) / c⌋ := Int.floor_nonneg.mpr hnonneg
    have hle := Int.floor_le ((startPix - first) / c)
    have hlt := Int.lt_floor_add_one ((startPix - first) / c)
    have hge : 0 ≤ startPix - first := hdiv ▸ mul_nonneg hc.le hnonneg
    rw [remainder, if_pos hnonneg]
    generalize ⌊(startPix - first) / c⌋ = q at hfloor hle hlt
    rcases Int.eq_ofNat_of_zero_le hfloor with ⟨n, rfl⟩
    rw [Int.cast_natCast] at hle hlt
    have hback : c * (n : ℚ) ≤ startPix - first := hdiv ▸ mul_le_mul_of_nonneg_left hle hc.le
    have hahead : startPix - first < c * ((n : ℚ) + 1) := hdiv ▸ mul_lt_mul_of_pos_left hlt hc
    refine ⟨n + 1, ?_, ?_, ?_, fun i hi _ => ?_⟩
    · rw [max_eq_right]
      · push_cast
        ring
      · push_cast
        linarith
    · refine iff_of_false (Nat.succ_ne_zero n) ?_
      linarith
    · push_cast
      linarith
    · have hcast : (i : ℚ) ≤ n := Nat.cast_le.mpr (Nat.le_of_lt_succ hi)
      have hmul := mul_le_mul_of_nonneg_left hcast hc.le
      linarith
  · -- The range begins in front of it, where the remainder is not positive.
    have hneg : (startPix - first) / c < 0 := not_le.mp hnonneg
    have hbefore : startPix - first < 0 := hdiv ▸ mul_neg_of_pos_of_neg hc hneg
    have hle := Int.le_ceil ((startPix - first) / c)
    have hlt := Int.ceil_lt_add_one ((startPix - first) / c)
    have hceil : ⌈(startPix - first) / c⌉ ≤ 0 := Int.ceil_le.mpr (by simpa using hneg.le)
    rw [remainder, if_neg hnonneg]
    generalize ⌈(startPix - first) / c⌉ = q at hle hlt hceil
    have hback : startPix - first ≤ c * (q : ℚ) := hdiv ▸ mul_le_mul_of_nonneg_left hle hc.le
    have hahead : c * (q : ℚ) < c * ((startPix - first) / c + 1) := mul_lt_mul_of_pos_left hlt hc
    rw [mul_add, hdiv, mul_one] at hahead
    by_cases hbad : startPix + c ≤ first
    · refine ⟨0, ?_, iff_of_true rfl hbad, ?_, fun i hi => absurd hi (Nat.not_lt_zero i)⟩
      · rw [max_eq_left]
        · simp
        · have hq : q ≤ -1 := by
            by_contra hgt
            have hzero : q = 0 := by omega
            rw [hzero] at hahead
            simp only [Int.cast_zero, mul_zero] at hahead
            linarith
          have hcast : (q : ℚ) ≤ -1 := by exact_mod_cast hq
          have hmul := mul_le_mul_of_nonneg_left hcast hc.le
          linarith
      · simp only [Nat.cast_zero, mul_zero]
        linarith
    · have hzero : q = 0 := by
        by_contra hne
        have hq : q ≤ -1 := by omega
        have hcast : (q : ℚ) ≤ -1 := by exact_mod_cast hq
        have hmul := mul_le_mul_of_nonneg_left hcast hc.le
        linarith
      refine ⟨1, ?_, iff_of_false Nat.one_ne_zero hbad, ?_, fun i hi hpos => by omega⟩
      · rw [hzero, max_eq_right]
        · simp only [Int.cast_zero, mul_zero, sub_zero, Nat.cast_one, mul_one]
          ring
        · simp only [Int.cast_zero, mul_zero]
          linarith
      · simp only [Nat.cast_one]
        linarith

end Loop

/-! ## The lines of a span -/

variable {spanData : SpanViewData} {k : Nat}

theorem lineBehind_of_zero (hzero : dim.sizeOf .corepixels k = 0) :
    lineBehind dim startPix endPix k = none := by
  rw [lineBehind, if_neg]
  omega

/-- A span whose start is drawn, which is not the end of one of its elements. -/
def StartDrawn (startPix endPix : ℚ) (spanData : SpanViewData) : Prop :=
  0 < spanData.data.sizecore ∧ spanFirstCorePx spanData < endPix ∧
    startPix + spanData.data.sizecore ≤ spanFirstCorePx spanData

instance : Decidable (StartDrawn startPix endPix spanData) :=
  inferInstanceAs (Decidable (_ ∧ _))

def startLine (startPix endPix : ℚ) (spanData : SpanViewData) : List (ℚ × Int) :=
  if StartDrawn startPix endPix spanData then
    [((spanFirstCorePx spanData : ℚ), (spanData.start : Int))]
  else []

theorem SpanAt.spanFirstCorePx_eq (h : dim.SpanAt spanData) :
    spanFirstCorePx spanData = dim.startPos .corepixels spanData.start := by
  have hend := h.startPos_eq (Nat.le_succ_of_le h.start_le) (Nat.le_refl _)
  rw [spanFirstCorePx, h.poscorepx, hend]
  push_cast
  ring

/-- Where the lines of a span are. -/
def spanLine (spanData : SpanViewData) (k : Nat) : ℚ :=
  spanFirstCorePx spanData + spanData.data.sizecore * ((k : ℚ) - spanData.start)

theorem spanLine_start : spanLine spanData spanData.start = spanFirstCorePx spanData := by
  simp [spanLine]

theorem spanLine_succ (k : Nat) :
    spanLine spanData (k + 1) = spanLine spanData k + spanData.data.sizecore := by
  rw [spanLine, spanLine]
  push_cast
  ring

theorem spanLine_mono (hpos : 0 < spanData.data.sizecore) : Monotone (spanLine spanData) := by
  refine monotone_nat_of_le_succ fun k => ?_
  rw [spanLine_succ]
  exact (lt_add_of_pos_right _ (Int.cast_pos.mpr hpos)).le

theorem SpanAt.spanLine_eq (h : dim.SpanAt spanData) (hstart : spanData.start ≤ k)
    (hlast : k ≤ spanData.finish + 1) : spanLine spanData k = dim.startPos .corepixels k := by
  rw [spanLine, h.spanFirstCorePx_eq, h.startPos_eq hstart hlast]
  push_cast
  ring

theorem SpanAt.spanLine_finish (h : dim.SpanAt spanData) :
    spanLine spanData (spanData.finish + 1) = spanData.data.poscorepx := by
  rw [h.spanLine_eq (Nat.le_succ_of_le h.start_le) (Nat.le_refl _), h.poscorepx]

/-- The lines that a span has in the range, in terms of its own steps. -/
theorem SpanAt.lineBehind_eq (h : dim.SpanAt spanData) (hpos : 0 < spanData.data.sizecore)
    (hk : k ∈ elementsOf spanData) :
    lineBehind dim startPix endPix k =
      if startPix < spanLine spanData (k + 1) ∧ spanLine spanData (k + 1) ≤ endPix then
        some (spanLine spanData (k + 1), (k : Int) + 1)
      else none := by
  have hmem := mem_elementsOf.mp hk
  rw [h.spanLine_eq (Nat.le_succ_of_le hmem.1) (Nat.succ_le_succ hmem.2), lineBehind,
    h.sizeOf_eq hmem.1 hmem.2]
  simp only [hpos, true_and]

/-- A span that does not overlap the range has no line in it. -/
theorem SpanAt.lines_eq_nil (h : dim.SpanAt spanData) (hpos : 0 < spanData.data.sizecore)
    (hno : ¬ ((spanFirstCorePx spanData : ℚ) < endPix ∧ startPix < spanData.data.poscorepx)) :
    (elementsOf spanData).filterMap (lineBehind dim startPix endPix) = [] := by
  refine List.filterMap_eq_nil_iff.mpr fun k hk => ?_
  have hmem := mem_elementsOf.mp hk
  have hfirst := spanLine_mono hpos (Nat.le_succ_of_le hmem.1)
  have hlast := spanLine_mono hpos (Nat.succ_le_succ hmem.2)
  have hstep := spanLine_mono hpos (Nat.succ_le_succ hmem.1)
  rw [spanLine_succ, spanLine_start] at hstep
  rw [h.spanLine_finish] at hlast
  have hsize : (0 : ℚ) < spanData.data.sizecore := Int.cast_pos.mpr hpos
  rw [h.lineBehind_eq hpos hk, if_neg]
  intro hin
  exact hno ⟨by linarith [hin.2], by linarith [hin.1]⟩

/-- From an element on, the loop draws the lines that are not behind the range. -/
theorem SpanAt.gridLines_eq (h : dim.SpanAt spanData) (hpos : 0 < spanData.data.sizecore)
    (hstart : spanData.start ≤ k) (hlast : k ≤ spanData.finish + 1)
    (hlt : startPix < spanLine spanData (k + 1)) {fuel : Nat} (hfuel : spanData.finish + 1 < fuel) :
    gridLines spanData.data.sizecore (min endPix spanData.data.poscorepx) fuel
        (spanLine spanData (k + 1)) (k + 1) =
      some ((List.range' k (spanData.finish + 1 - k)).filterMap
        (lineBehind dim startPix endPix)) := by
  have hend : spanData.finish + 1 = k + (spanData.finish + 1 - k) := by omega
  rw [← h.spanLine_finish, hend, SheetDimension.gridLines_eq spanLine_succ (Int.cast_pos.mpr hpos)
    (by omega), ← hend]
  refine congrArg some (List.filterMap_congr fun j hj => ?_)
  rw [List.mem_range'_1] at hj
  have hbehind : startPix < spanLine spanData (j + 1) :=
    hlt.trans_le (spanLine_mono hpos (Nat.succ_le_succ hj.1))
  rw [h.lineBehind_eq hpos (mem_elementsOf.mpr ⟨by omega, by omega⟩)]
  simp only [hbehind, true_and]

/-- The elements in front of the range have no line in it. -/
theorem SpanAt.filterMap_eq_of_front (h : dim.SpanAt spanData) (hpos : 0 < spanData.data.sizecore)
    (hstart : spanData.start ≤ k) (hlast : k ≤ spanData.finish + 1)
    (hfront : ∀ i, spanData.start < i → i ≤ k → spanLine spanData i ≤ startPix) :
    (elementsOf spanData).filterMap (lineBehind dim startPix endPix) =
      (List.range' k (spanData.finish + 1 - k)).filterMap (lineBehind dim startPix endPix) := by
  have hsplit : elementsOf spanData =
      List.range' spanData.start (k - spanData.start) ++
        List.range' k (spanData.finish + 1 - k) := by
    have hk : k = spanData.start + (k - spanData.start) := by omega
    rw [show List.range' k (spanData.finish + 1 - k) =
      List.range' (spanData.start + (k - spanData.start)) (spanData.finish + 1 - k) by rw [← hk],
      List.range'_append_1, elementsOf]
    congr 1
    omega
  have hnone : (List.range' spanData.start (k - spanData.start)).filterMap
      (lineBehind dim startPix endPix) = [] := by
    refine List.filterMap_eq_nil_iff.mpr fun i hi => ?_
    rw [List.mem_range'_1] at hi
    rw [h.lineBehind_eq hpos (mem_elementsOf.mpr ⟨hi.1, by omega⟩), if_neg]
    intro hin
    exact absurd hin.1 (not_lt.mpr (hfront (i + 1) (by omega) (by omega)))
  rw [hsplit, List.filterMap_append, hnone, List.nil_append]

/-- A span draws its lines in the range, and its start where that is not the next line. -/
theorem SpanAt.gridLinesOfSpan_eq (h : dim.SpanAt spanData) (startPix endPix : ℚ) {fuel : Nat}
    (hfuel : spanData.finish + 2 < fuel) :
    gridLinesOfSpan fuel startPix endPix spanData =
      some (startLine startPix endPix spanData ++
        (elementsOf spanData).filterMap (lineBehind dim startPix endPix)) := by
  have hsize : 0 ≤ spanData.data.sizecore := h.sizecore ▸ dim.sizeCorePxOne_nonneg _
  rcases hsize.eq_or_lt with hzero | hpos
  · -- No element of the span is visible.
    have hnone : (elementsOf spanData).filterMap (lineBehind dim startPix endPix) = [] :=
      List.filterMap_eq_nil_iff.mpr fun k hk =>
        have hmem := mem_elementsOf.mp hk
        lineBehind_of_zero ((h.sizeOf_eq hmem.1 hmem.2).trans hzero.symm)
    have hno : ¬ StartDrawn startPix endPix spanData := fun hdrawn => by
      have hlt := hdrawn.1
      omega
    rw [gridLinesOfSpan, startLine, if_neg hno, hnone, ← hzero]
    simp
  · have hc : (0 : ℚ) < spanData.data.sizecore := Int.cast_pos.mpr hpos
    have hle := h.start_le
    have hend : (spanFirstCorePx spanData : ℚ) ≤ spanData.data.poscorepx := by
      rw [← spanLine_start, ← h.spanLine_finish]
      exact spanLine_mono hpos (Nat.le_succ_of_le hle)
    rw [gridLinesOfSpan]
    by_cases hoverlap : (spanFirstCorePx spanData : ℚ) < endPix ∧ startPix < spanData.data.poscorepx
    · rcases firstCorePx_eq (spanFirstCorePx spanData : ℚ) startPix hc with
        ⟨j, hfirst, hj, hlt, hfront⟩
      have hline : ∀ i : Nat, (spanFirstCorePx spanData : ℚ) + spanData.data.sizecore * i =
          spanLine spanData (spanData.start + i) := fun i => by
        rw [spanLine]
        push_cast
        ring
      have hquot : (spanLine spanData (spanData.start + j) - spanFirstCorePx spanData) /
          spanData.data.sizecore = (j : Int) := by
        rw [← hline]
        field_simp
        simp
      rw [hline] at hlt
      simp only [if_pos hoverlap, if_neg hc.ne', hfirst, hline, hquot, Int.floor_intCast]
      cases j with
      | zero =>
          -- The remainder of a range that begins a whole element in front is not positive.
          have hdrawn : StartDrawn startPix endPix spanData := ⟨hpos, hoverlap.1, hj.mp rfl⟩
          have hbehind : startPix < spanLine spanData (spanData.start + 1) :=
            hlt.trans_le (spanLine_mono hpos (Nat.le_succ _))
          cases fuel with
          | zero => omega
          | succ fuel =>
              have hrest : gridLines _ (min endPix spanData.data.poscorepx) _ _ _ = _ :=
                h.gridLines_eq hpos (Nat.le_refl _) (Nat.le_succ_of_le hle) hbehind
                  (Nat.lt_of_succ_lt_succ hfuel)
              simp only [Nat.cast_zero, add_zero, spanLine_start]
              rw [spanLine_succ, spanLine_start] at hrest
              rw [gridLines, if_pos (le_min hoverlap.1.le hend), hrest, startLine, if_pos hdrawn]
              rfl
      | succ j =>
          have hno : ¬ StartDrawn startPix endPix spanData := fun hdrawn =>
            Nat.succ_ne_zero j (hj.mpr hdrawn.2.2)
          have hskipped : ∀ i, spanData.start < i → i ≤ spanData.start + j →
              spanLine spanData i ≤ startPix := by
            intro i hi hij
            have hle := hfront (i - spanData.start) (by omega) (by omega)
            rwa [hline, Nat.add_sub_cancel' (Nat.le_of_lt hi)] at hle
          have hin : spanData.start + j ≤ spanData.finish + 1 := by
            by_contra hgt
            have hfar := hskipped (spanData.finish + 1) (by omega) (by omega)
            rw [h.spanLine_finish] at hfar
            exact absurd hoverlap.2 (not_lt.mpr hfar)
          have hindex : (spanData.start : Int) + ((j + 1 : Nat) : Int) =
              ((spanData.start + j : Nat) : Int) + 1 := by
            push_cast
            ring
          rw [startLine, if_neg hno, List.nil_append, hindex,
            h.filterMap_eq_of_front hpos (Nat.le_add_right _ _) hin hskipped]
          exact h.gridLines_eq hpos (Nat.le_add_right _ _) hin hlt (Nat.lt_of_succ_lt hfuel)
    · have hno : ¬ StartDrawn startPix endPix spanData := fun hdrawn => by
        refine hoverlap ⟨hdrawn.2.1, ?_⟩
        linarith [hdrawn.2.2]
      simp only [if_neg hoverlap, startLine, if_neg hno, h.lines_eq_nil hpos hoverlap]
      rfl

/-! ## All lines -/

def gridLinesInRange (dim : SheetDimension) (startPix endPix : ℚ) : List (ℚ × Int) :=
  (List.range dim.elementCount).filterMap (lineBehind dim startPix endPix)

theorem mem_gridLinesInRange {call : ℚ × Int} : call ∈ gridLinesInRange dim startPix endPix ↔
    ∃ k < dim.elementCount, lineBehind dim startPix endPix k = some call := by
  simp only [gridLinesInRange, List.mem_filterMap, List.mem_range]

theorem pairwise_gridLinesInRange (dim : SheetDimension) (startPix endPix : ℚ) :
    (gridLinesInRange dim startPix endPix).Pairwise (·.1 < ·.1) := by
  refine List.pairwise_filterMap.mpr (List.pairwise_lt_range.imp ?_)
  intro i j hij front hfront back hback
  rw [lineBehind] at hfront hback
  split at hfront
  case isFalse => cases hfront
  case isTrue =>
    split at hback
    case isFalse => cases hback
    case isTrue hvisible =>
      cases hfront
      cases hback
      -- The element of the line behind is visible.
      have hmono := dim.startPos_mono .corepixels (Nat.succ_le_of_lt hij)
      have hnext : dim.startPos .corepixels (j + 1) = _ := startPos_succ (by simp) j
      refine Int.cast_lt.mpr (lt_of_le_of_lt hmono ?_)
      rw [hnext]
      exact lt_add_of_pos_right _ hvisible.1

theorem nodup_of_pairwise {calls : List (ℚ × Int)} (h : calls.Pairwise (·.1 < ·.1)) :
    calls.Nodup :=
  h.imp fun {front back} hlt (heq : front = back) => lt_irrefl back.1 (heq ▸ hlt)

/-- With enough steps every loop ends. -/
theorem forEachInCorePixelRange_eq (dim : SheetDimension) (startPix endPix : ℚ) {fuel : Nat}
    (hfuel : dim.elementCount + 2 ≤ fuel) :
    forEachInCorePixelRange fuel dim startPix endPix =
      some ((forEachSpan dim.visibleSizes).flatMap fun spanData =>
        startLine startPix endPix spanData ++
          (elementsOf spanData).filterMap (lineBehind dim startPix endPix)) := by
  have hspans : ∀ {views : List SpanViewData}, (∀ spanData ∈ views, dim.SpanAt spanData) →
      views.mapM (gridLinesOfSpan fuel startPix endPix) =
        some (views.map fun spanData => startLine startPix endPix spanData ++
          (elementsOf spanData).filterMap (lineBehind dim startPix endPix)) := by
    intro views hviews
    induction views with
    | nil => rfl
    | cons spanData views ih =>
        have hspan := hviews spanData List.mem_cons_self
        have hlt := hspan.finish_lt
        rw [List.mapM_cons, hspan.gridLinesOfSpan_eq startPix endPix (by omega),
          ih fun next hnext => hviews next (List.mem_cons_of_mem _ hnext)]
        rfl
  rw [forEachInCorePixelRange, hspans fun _ hmem => spanAt_of_mem hmem]
  rfl

theorem length_drawn (dim : SheetDimension) (startPix endPix : ℚ) :
    ((forEachSpan dim.visibleSizes).flatMap fun spanData =>
        startLine startPix endPix spanData ++
          (elementsOf spanData).filterMap (lineBehind dim startPix endPix)).length =
      ((forEachSpan dim.visibleSizes).flatMap (startLine startPix endPix)).length +
        (gridLinesInRange dim startPix endPix).length := by
  rw [gridLinesInRange, ← flatMap_elementsOf, List.filterMap_flatMap]
  induction forEachSpan dim.visibleSizes with
  | nil => rfl
  | cons spanData views ih =>
      simp only [List.flatMap_cons, List.length_append] at ih ⊢
      omega

/-- A start that is drawn is a line too many. -/
theorem not_startDrawn (hdraws : DrawsLinesOnce dim startPix endPix)
    (hmem : spanData ∈ forEachSpan dim.visibleSizes) : ¬ StartDrawn startPix endPix spanData := by
  rcases hdraws with ⟨calls, ⟨n, hcalls⟩, hpairwise, hlines⟩
  have hdrawn := (hcalls (max n (dim.elementCount + 2)) (le_max_left _ _)).symm.trans
    (forEachInCorePixelRange_eq dim startPix endPix (le_max_right _ _))
  have hperm : calls.Perm (gridLinesInRange dim startPix endPix) := by
    refine (List.perm_ext_iff_of_nodup (nodup_of_pairwise hpairwise)
      (nodup_of_pairwise (pairwise_gridLinesInRange dim startPix endPix))).mpr fun call => ?_
    rw [hlines, mem_gridLinesInRange]
  have hlength := hperm.length_eq
  rw [Option.some.inj hdrawn, length_drawn, Nat.add_eq_right, List.length_eq_zero_iff,
    List.flatMap_eq_nil_iff] at hlength
  have hnone := hlength spanData hmem
  intro hstart
  rw [startLine, if_pos hstart] at hnone
  cases hnone

/-- Each line in a range is drawn once if and only if no span of visible elements begins in front of
the end of the range and the size of an element or more behind its start. -/
theorem drawsLinesOnce_iff (dim : SheetDimension) (startPix endPix : ℚ) :
    DrawsLinesOnce dim startPix endPix ↔
      ∀ spanData ∈ forEachSpan dim.visibleSizes, 0 < spanData.data.sizecore →
        (spanFirstCorePx spanData : ℚ) < endPix →
        spanFirstCorePx spanData < startPix + spanData.data.sizecore := by
  constructor
  · intro hdraws spanData hmem hpos hend
    by_contra hfar
    exact not_startDrawn hdraws hmem ⟨hpos, hend, not_lt.mp hfar⟩
  · intro hspans
    have hlines : ∀ fuel ≥ dim.elementCount + 2, forEachInCorePixelRange fuel dim startPix endPix =
        some (gridLinesInRange dim startPix endPix) := by
      intro fuel hfuel
      rw [forEachInCorePixelRange_eq dim startPix endPix hfuel, gridLinesInRange,
        ← flatMap_elementsOf, List.filterMap_flatMap]
      refine congrArg some (List.flatMap_congr fun spanData hmem => ?_)
      rw [startLine, if_neg, List.nil_append]
      intro hdrawn
      exact absurd (hspans spanData hmem hdrawn.1 hdrawn.2.1) (not_lt.mpr hdrawn.2.2)
    exact ⟨_, ⟨_, hlines⟩, pairwise_gridLinesInRange dim startPix endPix,
      fun _ => mem_gridLinesInRange⟩

/-- A column of 100 pixels and one of 50, at 15 twips for a pixel. -/
def twoColumns : SheetDimension :=
  (new 3840 256 twips_pos_3840 pixels_pos_256).updateVisible [⟨0, 1500⟩, ⟨1, 750⟩] (by simp)

example : forEachInCorePixelRange 4 twoColumns 0 1000 = some [(100, 1), (100, 1), (150, 2)] := by
  decide +kernel

/-- The end of the first column is drawn with the first span and with the second one. -/
theorem not_drawsLinesOnce_twoColumns : ¬ DrawsLinesOnce twoColumns 0 1000 := by
  have hany : (forEachSpan twoColumns.visibleSizes).any
      (fun spanData => decide (StartDrawn 0 1000 spanData)) = true := by
    decide +kernel
  rcases List.any_eq_true.mp hany with ⟨spanData, hmem, hdrawn⟩
  exact fun hdraws => not_startDrawn hdraws hmem (of_decide_eq_true hdrawn)

end SheetDimension

end SheetGeometry

end CoolOnline
