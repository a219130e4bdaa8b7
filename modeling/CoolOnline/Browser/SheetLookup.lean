import CoolOnline.Browser.SheetDimension

/-! # The element at a position

`getSnapPos` and `getIndexFromPos` of `SheetDimension` in `browser/src/layer/tile/SheetGeometry.ts`.
The span is searched by where the spans end, and the element in it by cutting the span into parts of
one size. `none` is what the code has as `NaN`, as infinite or as undefined, or where it throws.
-/

namespace CoolOnline

open Finset Run

namespace SheetGeometry

structure IndexAndSpan where
  index : Int
  span : Option SpanViewData

namespace SpanList

/-- Values are taken to start from zero and not to decrease. The end of a span that has another one
behind it counts one less. -/
def customDataDirection (value : ℚ) (field : PositionData → Int) (prevSpan : Option SpanData)
    (curSpan : SpanData) (nextSpan : Option SpanData) : Ordering :=
  let valueStart : ℚ := prevSpan.elim 0 fun span => field span.data
  let valueEnd : ℚ := field curSpan.data - if nextSpan.isSome then 1 else 0
  if value < valueStart then .lt else if valueEnd < value then .gt else .eq

/-- Spans of size zero make duplicates, and the first is wanted. -/
def searchByCustomDataField (spanlist : List SpanData) (value : ℚ) (field : PositionData → Int) :
    Option Nat :=
  binarySearch spanlist (customDataDirection value field) true

def getSpanDataByCustomDataField (spanlist : List SpanData) (value : ℚ)
    (field : PositionData → Int) : Option SpanViewData :=
  (searchByCustomDataField spanlist value field).bind (getSpanData spanlist)

end SpanList

open SpanList

namespace SheetDimension

/-- Where no span is found. -/
def enforceLimits (dim : SheetDimension) (pos : ℚ) : IndexAndSpan :=
  let index := if 0 ≤ pos then dim.maxIndex else 0
  ⟨index, getSpanDataByIndex dim.visibleSizes index⟩

/-- Always rounds down, as the relative index is zero-based. -/
def indexInSpan (span : SpanViewData) (pos posStart sizeOne : ℚ) : Option IndexAndSpan :=
  if sizeOne = 0 then none else some ⟨span.start + ⌊(pos - posStart) / sizeOne⌋, some span⟩

def getSpanAndIndexFromTileTwipsPos (dim : SheetDimension) (pos : ℚ) : Option IndexAndSpan :=
  match getSpanDataByCustomDataField dim.visibleSizes pos PositionData.postiletwips with
  | none => some (dim.enforceLimits pos)
  | some span =>
      let elementCount : Int := span.finish - span.start + 1
      let posStart : ℚ :=
        (span.data.poscorepx - span.data.sizecore * elementCount : Int) * dim.twipsPerCorePixel
      let posEnd : ℚ := span.data.postiletwips
      indexInSpan span pos posStart ((posEnd - posStart) / elementCount)

def getSpanAndIndexFromPrintTwipsPos (dim : SheetDimension) (pos : ℚ) : Option IndexAndSpan :=
  match getSpanDataByCustomDataField dim.visibleSizes pos PositionData.posprinttwips with
  | none => some (dim.enforceLimits pos)
  | some span =>
      let elementCount : Int := span.finish - span.start + 1
      indexInSpan span pos (span.data.posprinttwips - span.size * elementCount : Int) span.size

/-- Positions in core pixels are searched in tile twips. -/
def getSpanAndIndex (dim : SheetDimension) (pos : ℚ) : GeometryUnit → Option IndexAndSpan
  | .corepixels => dim.getSpanAndIndexFromTileTwipsPos (pos * dim.twipsPerCorePixel)
  | .tiletwips => dim.getSpanAndIndexFromTileTwipsPos pos
  | .printtwips => dim.getSpanAndIndexFromPrintTwipsPos pos

def getSnapPos (dim : SheetDimension) (pos : ℚ) (unitName : GeometryUnit) : Option Int :=
  (dim.getSpanAndIndex pos unitName).bind fun result =>
    result.span.bind fun span =>
      (dim.getElementDataAnyFromSpanByIndex result.index span unitName).map
        DimensionPosSize.startpos

def getIndexFromPos (dim : SheetDimension) (pos : ℚ) (unitName : GeometryUnit) : Option Int :=
  (dim.getSpanAndIndex pos unitName).map IndexAndSpan.index

def getSize (dim : SheetDimension) (unitName : GeometryUnit) : Option Int :=
  (dim.getElementDataAny dim.maxIndex unitName).map fun posSize => posSize.startpos + posSize.size

/-! ## The span that is found -/

variable {dim : SheetDimension} {i k : Nat} {run : Run Nat} {pos : ℚ} {unitName : GeometryUnit}

/-- The custom data that is searched in a unit. -/
def field : GeometryUnit → PositionData → Int
  | .corepixels => PositionData.poscorepx
  | .tiletwips => PositionData.postiletwips
  | .printtwips => PositionData.posprinttwips

theorem field_place (unitName : GeometryUnit) (run : Run Nat) :
    field unitName (place dim.twipsPerCorePixel dim.sizes run).data =
      dim.startPos unitName (run.index + 1) := by
  cases unitName <;> rfl

/-- The position is in the interval that the search has for a span. -/
def InSpan (dim : SheetDimension) (unitName : GeometryUnit) (pos : ℚ) (i : Nat) (run : Run Nat) :
    Prop :=
  (dim.startPos unitName (dim.startIndex i) : ℚ) ≤ pos ∧
    pos ≤ dim.startPos unitName (run.index + 1) -
      if i + 1 < dim.visibleSizes.length then 1 else 0

/-- The end of that interval. -/
def searchEnd (dim : SheetDimension) (unitName : GeometryUnit) (i : Nat) : ℚ :=
  dim.startPos unitName (dim.lastOf i + 1) - if i + 1 < dim.visibleSizes.length then 1 else 0

theorem directionAt_customDataDirection (dim : SheetDimension) (unitName : GeometryUnit) (pos : ℚ)
    (j : Nat) (hj : j < dim.visibleSizes.length) :
    directionAt dim.visibleSizes (customDataDirection pos (field unitName)) j =
      BinarySearch.side (fun i => (dim.startPos unitName (dim.startIndex i) : ℚ))
        (dim.searchEnd unitName) pos j := by
  have hspan : ∀ i (hi : i < dim.visibleSizes.length), ∃ run,
      (spans dim.visibleSizes)[i]? = some run ∧
        dim.visibleSizes[i] = place dim.twipsPerCorePixel dim.sizes run := by
    intro i hi
    have hrun : (spans dim.visibleSizes)[i]? = some dim.visibleSizes[i].span := by
      rw [spans, List.getElem?_map, List.getElem?_eq_getElem hi]
      rfl
    have hplace := getElem?_visibleSizes hrun
    rw [List.getElem?_eq_getElem hi] at hplace
    exact ⟨_, hrun, Option.some.inj hplace⟩
  rcases hspan j hj with ⟨run, hrun, hplace⟩
  rw [directionAt, List.getElem?_eq_getElem hj, BinarySearch.side, searchEnd, lastOf_eq hrun,
    hplace]
  simp only [customDataDirection, field_place, isSome_getElem?]
  cases j with
  | zero =>
      have hzero : dim.startPos unitName (dim.startIndex 0) = 0 := startPos_zero unitName
      rw [hzero]
      rfl
  | succ j =>
      rcases hspan j (by omega) with ⟨front, hfront, hplace⟩
      rw [if_neg (Nat.succ_ne_zero j), Nat.add_sub_cancel,
        List.getElem?_eq_getElem (Nat.lt_of_succ_lt hj), hplace, startIndex_succ hfront]
      simp only [Option.elim_some, field_place]

theorem searchEnd_of_lt {j : Nat} (hij : i < j) (hj : j < dim.visibleSizes.length) :
    dim.searchEnd unitName i = dim.startPos unitName (dim.lastOf i + 1) - 1 := by
  rw [searchEnd, if_pos (by omega)]

theorem searchEnd_lt_startPos {j : Nat} (hij : i < j) (hj : j < dim.visibleSizes.length) :
    dim.searchEnd unitName i < dim.startPos unitName (dim.startIndex j) := by
  have hmono : (dim.startPos unitName (dim.lastOf i + 1) : ℚ) ≤
      dim.startPos unitName (dim.startIndex j) :=
    Int.cast_le.mpr (dim.startPos_mono unitName (lastOf_lt_startIndex hij hj))
  rw [searchEnd_of_lt hij hj]
  linarith

theorem searchEnd_mono {j : Nat} (hij : i ≤ j) (hj : j < dim.visibleSizes.length) :
    dim.searchEnd unitName i ≤ dim.searchEnd unitName j := by
  rcases Nat.eq_or_lt_of_le hij with rfl | hlt
  · exact le_refl _
  · have hmono : (dim.startPos unitName (dim.lastOf i + 1) : ℚ) ≤
        dim.startPos unitName (dim.lastOf j + 1) :=
      Int.cast_le.mpr (dim.startPos_mono unitName (Nat.succ_le_succ (lastOf_mono hij hj)))
    rw [searchEnd_of_lt hlt hj, searchEnd]
    split <;> linarith

theorem lt_length (hrun : (spans dim.visibleSizes)[i]? = some run) :
    i < dim.visibleSizes.length := by
  rw [← length_spans]
  exact (List.getElem?_eq_some_iff.mp hrun).1

theorem getSpanDataByCustomDataField_eq (hrun : (spans dim.visibleSizes)[i]? = some run)
    (hin : dim.InSpan unitName pos i run) :
    getSpanDataByCustomDataField dim.visibleSizes pos (field unitName) =
      some (dim.spanView i run) := by
  have hend : dim.searchEnd unitName i = dim.startPos unitName (run.index + 1) -
      if i + 1 < dim.visibleSizes.length then 1 else 0 := by
    rw [searchEnd, lastOf_eq hrun]
  have hsearch : searchByCustomDataField dim.visibleSizes pos (field unitName) = some i :=
    BinarySearch.search_eq_of_mem (dim.directionAt_customDataDirection unitName pos)
      (fun _ _ hij hj =>
        Int.cast_le.mpr (dim.startPos_mono unitName (startIndex_mono hij (Nat.le_of_lt hj))))
      (fun _ _ hij hj => searchEnd_mono hij hj) (fun _ _ hij hj => searchEnd_lt_startPos hij hj)
      (lt_length hrun) hin.1 (by rw [hend]; exact hin.2)
  rw [getSpanDataByCustomDataField, hsearch, Option.bind_some, getSpanData_eq hrun]

/-- The position is in none of the intervals. -/
def Missed (dim : SheetDimension) (unitName : GeometryUnit) (pos : ℚ) : Prop :=
  ∀ i run, (spans dim.visibleSizes)[i]? = some run → ¬ dim.InSpan unitName pos i run

theorem getSpanDataByCustomDataField_eq_none (hmissed : dim.Missed unitName pos) :
    getSpanDataByCustomDataField dim.visibleSizes pos (field unitName) = none := by
  have hsearch : searchByCustomDataField dim.visibleSizes pos (field unitName) = none := by
    refine BinarySearch.search_eq_none_of_not_mem (dim.directionAt_customDataDirection unitName pos)
      fun j hj hle => ?_
    rw [← length_spans] at hj
    have hrun := List.getElem?_eq_getElem hj
    rw [searchEnd, lastOf_eq hrun]
    by_contra hge
    exact hmissed j _ hrun ⟨hle, not_lt.mp hge⟩
  rw [getSpanDataByCustomDataField, hsearch]
  rfl

/-! ## The element in the span -/

/-- The unit in which a position is searched, and the position in it. -/
def searchUnit : GeometryUnit → GeometryUnit
  | .printtwips => .printtwips
  | _ => .tiletwips

def searchPos (dim : SheetDimension) (pos : ℚ) : GeometryUnit → ℚ
  | .corepixels => pos * dim.twipsPerCorePixel
  | _ => pos

/-- Where the parts of a span begin. In tile twips this is not rounded, but the end of the span
is. -/
def partsStart (dim : SheetDimension) (unitName : GeometryUnit) (index : Nat) : ℚ :=
  match searchUnit unitName with
  | .printtwips => startPrintTwips dim.sizes index
  | _ => startCorePx dim.twipsPerCorePixel dim.sizes index * dim.twipsPerCorePixel

/-- How much the parts of a span have together. -/
def partsLength (dim : SheetDimension) (unitName : GeometryUnit) (i : Nat) (run : Run Nat) : ℚ :=
  dim.startPos (searchUnit unitName) (run.index + 1) - dim.partsStart unitName (dim.startIndex i)

def elementsIn (dim : SheetDimension) (i : Nat) (run : Run Nat) : Int :=
  (run.index : Int) - dim.startIndex i + 1

theorem elementsIn_pos (hrun : (spans dim.visibleSizes)[i]? = some run) :
    0 < dim.elementsIn i run := by
  have hle := (span_bounds hrun).1
  rw [elementsIn]
  omega

theorem searchPos_nonneg (hpos : 0 ≤ pos) (unitName : GeometryUnit) :
    0 ≤ dim.searchPos pos unitName := by
  cases unitName with
  | corepixels => exact mul_nonneg hpos dim.twipsPerCorePixel_pos.le
  | tiletwips => exact hpos
  | printtwips => exact hpos

theorem getSpanAndIndexFromTileTwipsPos_eq (hrun : (spans dim.visibleSizes)[i]? = some run)
    (hspan : getSpanDataByCustomDataField dim.visibleSizes pos PositionData.postiletwips =
      some (dim.spanView i run)) :
    dim.getSpanAndIndexFromTileTwipsPos pos = indexInSpan (dim.spanView i run) pos
      (dim.partsStart .tiletwips (dim.startIndex i))
      (dim.partsLength .tiletwips i run / dim.elementsIn i run) := by
  have hcore := startCorePx_of_span hrun (Nat.le_refl _) (Nat.le_succ_of_le (span_bounds hrun).1)
  rw [getSpanAndIndexFromTileTwipsPos, hspan]
  simp only [spanView, place, hcore]
  rfl

theorem partsLength_printtwips (hrun : (spans dim.visibleSizes)[i]? = some run) :
    dim.partsLength .printtwips i run = run.value * dim.elementsIn i run := by
  have hle := (span_bounds hrun).1
  have hprint := startPrintTwips_of_span hrun (Nat.le_refl _) (Nat.le_succ_of_le hle)
  rw [partsLength, partsStart, elementsIn]
  simp only [searchUnit, startPos]
  rw [← hprint]
  push_cast
  ring

theorem getSpanAndIndexFromPrintTwipsPos_eq (hrun : (spans dim.visibleSizes)[i]? = some run)
    (hspan : getSpanDataByCustomDataField dim.visibleSizes pos PositionData.posprinttwips =
      some (dim.spanView i run)) :
    dim.getSpanAndIndexFromPrintTwipsPos pos = indexInSpan (dim.spanView i run) pos
      (dim.partsStart .printtwips (dim.startIndex i))
      (dim.partsLength .printtwips i run / dim.elementsIn i run) := by
  have hle := (span_bounds hrun).1
  have hprint := startPrintTwips_of_span hrun (Nat.le_refl _) (Nat.le_succ_of_le hle)
  have hcount : (dim.elementsIn i run : ℚ) ≠ 0 := Int.cast_ne_zero.mpr (elementsIn_pos hrun).ne'
  rw [partsLength_printtwips hrun, mul_div_cancel_right₀ _ hcount,
    getSpanAndIndexFromPrintTwipsPos, hspan]
  simp only [spanView, place, hprint]
  rfl

/-- A span has the positions of its elements divided evenly. -/
theorem getSpanAndIndex_of_inSpan (hrun : (spans dim.visibleSizes)[i]? = some run)
    (hin : dim.InSpan (searchUnit unitName) (dim.searchPos pos unitName) i run) :
    dim.getSpanAndIndex pos unitName = indexInSpan (dim.spanView i run) (dim.searchPos pos unitName)
      (dim.partsStart unitName (dim.startIndex i))
      (dim.partsLength unitName i run / dim.elementsIn i run) := by
  have hspan := getSpanDataByCustomDataField_eq hrun hin
  cases unitName with
  | corepixels => exact getSpanAndIndexFromTileTwipsPos_eq hrun hspan
  | tiletwips => exact getSpanAndIndexFromTileTwipsPos_eq hrun hspan
  | printtwips => exact getSpanAndIndexFromPrintTwipsPos_eq hrun hspan

theorem getSpanAndIndexFromTileTwipsPos_of_none
    (hnone : getSpanDataByCustomDataField dim.visibleSizes pos PositionData.postiletwips = none) :
    dim.getSpanAndIndexFromTileTwipsPos pos = some (dim.enforceLimits pos) := by
  rw [getSpanAndIndexFromTileTwipsPos, hnone]

theorem getSpanAndIndex_of_missed
    (hmissed : dim.Missed (searchUnit unitName) (dim.searchPos pos unitName)) :
    dim.getSpanAndIndex pos unitName = some (dim.enforceLimits (dim.searchPos pos unitName)) := by
  have hnone := getSpanDataByCustomDataField_eq_none hmissed
  cases unitName with
  | corepixels => exact getSpanAndIndexFromTileTwipsPos_of_none hnone
  | tiletwips => exact getSpanAndIndexFromTileTwipsPos_of_none hnone
  | printtwips =>
      rw [getSpanAndIndex, getSpanAndIndexFromPrintTwipsPos]
      simp only [searchUnit, searchPos, field] at hnone
      rw [hnone]
      rfl

/-- The part of an element in its span has the position in it. -/
def InPart (dim : SheetDimension) (unitName : GeometryUnit) (pos : ℚ) (i : Nat) (run : Run Nat)
    (k : Nat) : Prop :=
  ((k : ℚ) - dim.startIndex i) * dim.partsLength unitName i run ≤
      (pos - dim.partsStart unitName (dim.startIndex i)) * dim.elementsIn i run ∧
    (pos - dim.partsStart unitName (dim.startIndex i)) * dim.elementsIn i run <
      ((k : ℚ) - dim.startIndex i + 1) * dim.partsLength unitName i run

/-- Rounding a share of a length down. -/
theorem floor_div_eq_iff {x length : ℚ} {count j : Int} (hlength : 0 < length)
    (hcount : 0 < count) :
    ⌊x / (length / count)⌋ = j ↔ j * length ≤ x * count ∧ x * count < (j + 1) * length := by
  have hq : (0 : ℚ) < count := Int.cast_pos.mpr hcount
  rw [Int.floor_eq_iff, div_div_eq_mul_div, le_div_iff₀ hlength, div_lt_iff₀ hlength]

/-- Where a span has no length in the unit, only the last one is found, at its end. -/
theorem eq_end_of_length_nonpos (hlength : dim.partsLength unitName i run ≤ 0)
    (hin : dim.InSpan (searchUnit unitName) pos i run) :
    pos = dim.startPos (searchUnit unitName) (run.index + 1) := by
  have hle : pos ≤ dim.startPos (searchUnit unitName) (run.index + 1) := by
    have hend := hin.2
    split at hend <;> linarith
  refine le_antisymm hle (le_trans (Int.cast_le.mpr ?_) hin.1)
  rw [partsLength, sub_nonpos] at hlength
  cases unitName with
  | corepixels => exact Int.le_floor.mpr hlength
  | tiletwips => exact Int.le_floor.mpr hlength
  | printtwips => exact Int.cast_le.mp hlength

/-- The code names an element of the span if the element's part has the position in it. -/
theorem indexInSpan_eq_iff (hrun : (spans dim.visibleSizes)[i]? = some run)
    (hin : dim.InSpan (searchUnit unitName) pos i run) (hlast : k ≤ run.index) :
    indexInSpan (dim.spanView i run) pos (dim.partsStart unitName (dim.startIndex i))
        (dim.partsLength unitName i run / dim.elementsIn i run) =
        some ⟨k, some (dim.spanView i run)⟩ ↔ dim.InPart unitName pos i run k := by
  have hcount := elementsIn_pos hrun
  have hq : (0 : ℚ) < dim.elementsIn i run := Int.cast_pos.mpr hcount
  rcases lt_or_ge 0 (dim.partsLength unitName i run) with hlength | hlength
  · have hfloor := floor_div_eq_iff (x := pos - dim.partsStart unitName (dim.startIndex i))
      (j := (k : Int) - dim.startIndex i) hlength hcount
    push_cast at hfloor
    rw [indexInSpan, if_neg (div_pos hlength hq).ne', InPart, ← hfloor]
    simp only [Option.some.injEq, IndexAndSpan.mk.injEq, and_true, spanView_start]
    omega
  · have hpos := eq_end_of_length_nonpos hlength hin
    have hdiff : pos - dim.partsStart unitName (dim.startIndex i) =
        dim.partsLength unitName i run := by
      rw [hpos, partsLength]
    rw [indexInSpan, InPart, hdiff]
    rcases eq_or_lt_of_le hlength with hzero | hneg
    · simp [hzero]
    · have hone : dim.partsLength unitName i run /
          (dim.partsLength unitName i run / dim.elementsIn i run) = dim.elementsIn i run :=
        div_div_cancel₀ hneg.ne
      have hnumber : (k : ℚ) - dim.startIndex i < dim.elementsIn i run := by
        have hcast : (k : ℚ) ≤ run.index := Nat.cast_le.mpr hlast
        rw [elementsIn]
        push_cast
        linarith
      have hlt := mul_lt_mul_of_neg_right hnumber hneg
      rw [if_neg (div_neg_of_neg_of_pos hneg hq).ne, hone, Int.floor_intCast]
      refine iff_of_false ?_ fun hpart => ?_
      · simp only [Option.some.injEq, IndexAndSpan.mk.injEq, and_true, spanView_start, elementsIn]
        omega
      · rw [mul_comm] at hlt
        exact absurd hpart.1 (not_le.mpr hlt)

/-! ## The element that is found -/

/-- The position is in the interval of the element's span and in the element's part of it. -/
def Found (dim : SheetDimension) (unitName : GeometryUnit) (pos : ℚ) (k : Nat) : Prop :=
  ∃ i run, (spans dim.visibleSizes)[i]? = some run ∧ dim.startIndex i ≤ k ∧ k ≤ run.index ∧
    dim.InSpan (searchUnit unitName) (dim.searchPos pos unitName) i run ∧
    dim.InPart unitName (dim.searchPos pos unitName) i run k

/-- The position is in the element's part, or it is in no span and the element is the limit. -/
def Finds (dim : SheetDimension) (unitName : GeometryUnit) (pos : ℚ) (k : Nat) : Prop :=
  dim.Found unitName pos k ∨
    dim.Missed (searchUnit unitName) (dim.searchPos pos unitName) ∧ k = dim.maxIndex

theorem lookup_of_span (hrun : (spans dim.visibleSizes)[i]? = some run)
    (hstart : dim.startIndex i ≤ k) (hlast : k ≤ run.index)
    (h : dim.getSpanAndIndex pos unitName = some ⟨k, some (dim.spanView i run)⟩) :
    dim.getIndexFromPos pos unitName = some (k : Int) ∧
      dim.getSnapPos pos unitName = some (dim.startPos unitName k) := by
  rw [getIndexFromPos, getSnapPos, h]
  simp [getElementDataAnyFromSpanByIndex_eq unitName hrun hstart hlast]

theorem enforceLimits_eq (hpos : 0 ≤ pos) (hmax : dim.maxIndex < dim.elementCount) :
    ∃ i run, (spans dim.visibleSizes)[i]? = some run ∧ dim.startIndex i ≤ dim.maxIndex ∧
      dim.maxIndex ≤ run.index ∧
      dim.enforceLimits pos = ⟨dim.maxIndex, some (dim.spanView i run)⟩ := by
  rcases exists_span hmax with ⟨i, run, hrun, hstart, hlast⟩
  refine ⟨i, run, hrun, hstart, hlast, ?_⟩
  rw [enforceLimits, if_pos hpos, getSpanDataByIndex, searchByIndex_of_span hrun hstart hlast,
    Option.bind_some, getSpanData_eq hrun]

/-- An element that is found is one of a span. -/
theorem getSpanAndIndex_of_finds (hpos : 0 ≤ pos)
    (hmax : k = dim.maxIndex → dim.maxIndex < dim.elementCount) (h : dim.Finds unitName pos k) :
    ∃ i run, (spans dim.visibleSizes)[i]? = some run ∧ dim.startIndex i ≤ k ∧ k ≤ run.index ∧
      dim.getSpanAndIndex pos unitName = some ⟨k, some (dim.spanView i run)⟩ := by
  rcases h with ⟨i, run, hrun, hstart, hlast, hin, hpart⟩ | ⟨hmissed, rfl⟩
  · refine ⟨i, run, hrun, hstart, hlast, ?_⟩
    rw [getSpanAndIndex_of_inSpan hrun hin]
    exact (indexInSpan_eq_iff hrun hin hlast).mpr hpart
  · rcases enforceLimits_eq (searchPos_nonneg hpos unitName) (hmax rfl) with
      ⟨i, run, hrun, hstart, hlast, hlimits⟩
    refine ⟨i, run, hrun, hstart, hlast, ?_⟩
    rw [getSpanAndIndex_of_missed hmissed, hlimits]

/-- Where an element is found, it and its start are what the code returns. -/
theorem lookup_of_finds (hpos : 0 ≤ pos) (hmax : dim.maxIndex < dim.elementCount)
    (h : dim.Finds unitName pos k) :
    dim.getIndexFromPos pos unitName = some (k : Int) ∧
      dim.getSnapPos pos unitName = some (dim.startPos unitName k) := by
  obtain ⟨i, run, hrun, hstart, hlast, helement⟩ :=
    getSpanAndIndex_of_finds hpos (fun _ => hmax) h
  exact lookup_of_span hrun hstart hlast helement

theorem bounds_of_isSome {index : Int} {span : SpanViewData}
    (h : (dim.getElementDataAnyFromSpanByIndex index span unitName).isSome = true) :
    (span.start : Int) ≤ index ∧ index ≤ span.finish := by
  rw [getElementDataAnyFromSpanByIndex] at h
  split at h
  case isTrue => cases h
  case isFalse hin => omega

/-- What the code returns is found, if its start is defined. -/
theorem finds_of_lookup (hpos : 0 ≤ pos)
    (hindex : dim.getIndexFromPos pos unitName = some (k : Int))
    (hsnap : (dim.getSnapPos pos unitName).isSome = true) : dim.Finds unitName pos k := by
  by_cases hmissed : dim.Missed (searchUnit unitName) (dim.searchPos pos unitName)
  · refine .inr ⟨hmissed, ?_⟩
    rw [getIndexFromPos, getSpanAndIndex_of_missed hmissed, enforceLimits,
      if_pos (searchPos_nonneg hpos unitName)] at hindex
    exact (Int.ofNat.inj (Option.some.inj hindex)).symm
  · simp only [Missed, not_forall, not_not] at hmissed
    rcases hmissed with ⟨i, run, hrun, hin⟩
    have hspan := getSpanAndIndex_of_inSpan hrun hin
    rw [getIndexFromPos, hspan, indexInSpan] at hindex
    rw [getSnapPos, hspan, indexInSpan] at hsnap
    split at hindex
    case isTrue => cases hindex
    case isFalse hone =>
      have hk := Option.some.inj hindex
      simp only at hk
      rw [if_neg hone] at hsnap
      simp only [Option.bind_some, Option.isSome_map, hk] at hsnap
      have hbounds := bounds_of_isSome hsnap
      simp only [spanView_start, spanView_finish] at hbounds
      refine .inl ⟨i, run, hrun, by omega, by omega, hin, ?_⟩
      refine (indexInSpan_eq_iff hrun hin (by omega)).mp ?_
      rw [indexInSpan, if_neg hone, hk]

/-- An element of positive size has the position in its interval. -/
def Contains (dim : SheetDimension) (unitName : GeometryUnit) (pos : ℚ) (k : Nat)
    (data : DimensionPosSize) : Prop :=
  dim.getElementDataAny k unitName = some data ∧ 0 < data.size ∧ (data.startpos : ℚ) ≤ pos ∧
    ∀ next nextData, k < next → dim.getElementDataAny next unitName = some nextData →
      0 < nextData.size → pos < nextData.startpos

/-- Below the size the element at the position is returned and its start, and from the size on an
element up to the limit. -/
structure LookupFinds (dim : SheetDimension) (unitName : GeometryUnit) (pos : ℚ) (size : Int) :
    Prop where
  below : pos < size → ∃ k data, dim.Contains unitName pos k data ∧
    dim.getIndexFromPos pos unitName = some (k : Int) ∧
      dim.getSnapPos pos unitName = some data.startpos
  beyond : size ≤ pos → ∃ k : Nat, k ≤ dim.maxIndex ∧
    dim.getIndexFromPos pos unitName = some (k : Int) ∧ (dim.getSnapPos pos unitName).isSome = true

theorem maxIndex_lt_of_getSize {size : Int} (hsize : dim.getSize unitName = some size) :
    dim.maxIndex < dim.elementCount := by
  by_contra hge
  rw [getSize, getElementDataAny_eq_none unitName (Nat.le_of_not_lt hge)] at hsize
  cases hsize

theorem eq_of_contains {data : DimensionPosSize} (h : dim.Contains unitName pos k data) :
    data.startpos = dim.startPos unitName k := by
  have hdata := h.1
  by_cases hk : k < dim.elementCount
  · rw [getElementDataAny_eq unitName hk] at hdata
    cases hdata
    rfl
  · rw [getElementDataAny_eq_none unitName (Nat.le_of_not_lt hk)] at hdata
    cases hdata

/-- The lookup is right where the search by ends that count one less and by parts of one size comes
to the element that has the position, or to the limit. -/
theorem lookupFinds_iff (dim : SheetDimension) (unitName : GeometryUnit) (pos : ℚ) (size : Int)
    (hsize : dim.getSize unitName = some size) (hpos : 0 ≤ pos) :
    dim.LookupFinds unitName pos size ↔
      (pos < size → ∃ k data, dim.Contains unitName pos k data ∧ dim.Finds unitName pos k) ∧
        (size ≤ pos → ∃ k, k ≤ dim.maxIndex ∧ dim.Finds unitName pos k) := by
  have hmax := maxIndex_lt_of_getSize hsize
  constructor
  · intro hfinds
    refine ⟨fun hlt => ?_, fun hge => ?_⟩
    · rcases hfinds.below hlt with ⟨k, data, hcontains, hindex, hsnap⟩
      refine ⟨k, data, hcontains, finds_of_lookup hpos hindex ?_⟩
      rw [hsnap]
      rfl
    · rcases hfinds.beyond hge with ⟨k, hk, hindex, hsnap⟩
      exact ⟨k, hk, finds_of_lookup hpos hindex hsnap⟩
  · intro h
    refine ⟨fun hlt => ?_, fun hge => ?_⟩
    · rcases h.1 hlt with ⟨k, data, hcontains, hfinds⟩
      have hlookup := lookup_of_finds hpos hmax hfinds
      rw [← eq_of_contains hcontains] at hlookup
      exact ⟨k, data, hcontains, hlookup⟩
    · rcases h.2 hge with ⟨k, hk, hfinds⟩
      have hlookup := lookup_of_finds hpos hmax hfinds
      refine ⟨k, hk, hlookup.1, ?_⟩
      rw [hlookup.2]
      rfl

/-- One span has all columns of a new spreadsheet. -/
theorem ascending_newColumns :
    ([⟨1023, 1280⟩] : List (Run Nat)).Pairwise (·.index < ·.index) := List.pairwise_singleton _ _

/-- The columns of a new spreadsheet, with 15 twips in a pixel. -/
def newColumns : SheetDimension :=
  ((new 3840 256 twips_pos_3840 pixels_pos_256).updateVisible [⟨1023, 1280⟩]
    ascending_newColumns).setMaxIndex 1023

theorem lookupFinds_iff_newColumns :
    newColumns.LookupFinds .printtwips 1280 1310720 ↔
      ((1280 : ℚ) < (1310720 : Int) → ∃ k data, newColumns.Contains .printtwips 1280 k data ∧
          newColumns.Finds .printtwips 1280 k) ∧
        (((1310720 : Int) : ℚ) ≤ 1280 → ∃ k, k ≤ newColumns.maxIndex ∧
          newColumns.Finds .printtwips 1280 k) :=
  lookupFinds_iff newColumns .printtwips 1280 1310720 (by decide +kernel) (by norm_num)

/-- At the size of those columns the lookup returns a column behind the last one. -/
theorem not_lookupFinds :
    ¬ ∀ (dim : SheetDimension) (unitName : GeometryUnit) (pos : ℚ) (size : Int),
      dim.getSize unitName = some size → 0 ≤ pos → dim.LookupFinds unitName pos size := by
  intro h
  have hsize : newColumns.getSize .printtwips = some 1310720 := by decide +kernel
  have hindex : newColumns.getIndexFromPos 1310720 .printtwips = some 1024 := by decide +kernel
  rcases (h newColumns .printtwips 1310720 1310720 hsize (by norm_num)).beyond (by norm_num) with
    ⟨k, hk, hlookup, -⟩
  rw [hindex] at hlookup
  have hmax : newColumns.maxIndex = 1023 := rfl
  have hlast := Option.some.inj hlookup
  omega

/-! ## Print twips -/

theorem startPos_printtwips_of_span (hrun : (spans dim.visibleSizes)[i]? = some run)
    (hstart : dim.startIndex i ≤ k) (hlast : k ≤ run.index + 1) :
    (dim.startPos .printtwips k : ℚ) =
      dim.partsStart .printtwips (dim.startIndex i) + ((k : ℚ) - dim.startIndex i) * run.value := by
  have hvalue := (span_bounds hrun).2.2
  have hsum : startPrintTwips dim.sizes k = startPrintTwips dim.sizes (dim.startIndex i) +
      (run.value : Int) * ((k : Int) - dim.startIndex i) :=
    sum_range_of_eq _ _ hstart fun j hj hlt => by rw [hvalue j hj (by omega)]
  rw [startPos, partsStart, hsum]
  push_cast
  simp only [searchUnit]
  ring

/-- In print twips the parts are the elements themselves. -/
theorem inPart_printtwips_iff (hrun : (spans dim.visibleSizes)[i]? = some run)
    (hstart : dim.startIndex i ≤ k) (hlast : k ≤ run.index) :
    dim.InPart .printtwips pos i run k ↔
      (dim.startPos .printtwips k : ℚ) ≤ pos ∧ pos < dim.startPos .printtwips (k + 1) := by
  have hcount : (0 : ℚ) < dim.elementsIn i run := Int.cast_pos.mpr (elementsIn_pos hrun)
  have hk := startPos_printtwips_of_span hrun hstart (Nat.le_succ_of_le hlast)
  have hnext := startPos_printtwips_of_span hrun (Nat.le_succ_of_le hstart) (Nat.succ_le_succ hlast)
  rw [InPart, partsLength_printtwips hrun, hk, hnext, ← mul_assoc, ← mul_assoc,
    mul_le_mul_iff_left₀ hcount, mul_lt_mul_iff_left₀ hcount]
  push_cast
  constructor
  · intro h
    constructor <;> linarith [h.1, h.2]
  · intro h
    constructor <;> linarith [h.1, h.2]

/-- A position in front of an element's start is between two starts. -/
theorem exists_startPos_le {m : Nat} (hpos : 0 ≤ pos)
    (hlt : pos < dim.startPos unitName m) :
    ∃ k < m, (dim.startPos unitName k : ℚ) ≤ pos ∧ pos < dim.startPos unitName (k + 1) := by
  induction m with
  | zero =>
      rw [startPos_zero, Int.cast_zero] at hlt
      exact absurd hlt (not_lt.mpr hpos)
  | succ m ih =>
      rcases lt_or_ge pos (dim.startPos unitName m) with hfront | hge
      · rcases ih hfront with ⟨k, hk, hbounds⟩
        exact ⟨k, Nat.lt_succ_of_lt hk, hbounds⟩
      · exact ⟨m, Nat.lt_succ_self m, hge, hlt⟩

/-- The end that counts one less leaves no whole position out. -/
theorem found_printtwips (hk : k < dim.elementCount) {pos : Int}
    (hle : dim.startPos .printtwips k ≤ pos) (hlt : pos < dim.startPos .printtwips (k + 1)) :
    dim.Found .printtwips pos k := by
  rcases exists_span hk with ⟨i, run, hrun, hstart, hlast⟩
  refine ⟨i, run, hrun, hstart, hlast, ⟨?_, ?_⟩, ?_⟩
  · exact Int.cast_le.mpr (le_trans (dim.startPos_mono .printtwips hstart) hle)
  · have hmono : dim.startPos .printtwips (k + 1) ≤ dim.startPos .printtwips (run.index + 1) :=
      dim.startPos_mono .printtwips (Nat.succ_le_succ hlast)
    have hcast : (pos : ℚ) + 1 ≤ dim.startPos .printtwips (run.index + 1) := by
      exact_mod_cast Int.add_one_le_of_lt (hlt.trans_le hmono)
    simp only [searchPos, searchUnit]
    split <;> linarith
  · exact (inPart_printtwips_iff hrun hstart hlast).mpr
      ⟨Int.cast_le.mpr hle, Int.cast_lt.mpr hlt⟩

/-- No element has the end of all elements, and the last span is not missed there. -/
theorem not_finds_end (hcount : 0 < dim.elementCount) (k : Nat) :
    ¬ dim.Finds .printtwips (dim.startPos .printtwips dim.elementCount) k := by
  rintro (⟨i, run, hrun, hstart, hindex, -, hpart⟩ | ⟨hmissed, -⟩)
  · have hlt := ((inPart_printtwips_iff hrun hstart hindex).mp hpart).2
    have hmono : dim.startPos .printtwips (k + 1) ≤ dim.startPos .printtwips dim.elementCount :=
      dim.startPos_mono .printtwips (Nat.lt_of_le_of_lt hindex (span_bounds hrun).2.1)
    exact absurd hlt (not_lt.mpr (Int.cast_le.mpr hmono))
  · rcases exists_span (Nat.sub_one_lt_of_lt hcount) with ⟨i, run, hrun, hstart, hindex⟩
    have hrunEnd : run.index + 1 = dim.elementCount := by
      have hbound := (span_bounds hrun).2.1
      omega
    have hno : ¬ i + 1 < dim.visibleSizes.length := by
      intro hi
      have hnext := startIndex_le_lastOf hi
      rw [startIndex_succ hrun] at hnext
      omega
    refine hmissed i run hrun ⟨?_, ?_⟩
    · exact Int.cast_le.mpr (dim.startPos_mono .printtwips (by omega))
    · simp [searchPos, searchUnit, hrunEnd, hno]

end SheetDimension

end SheetGeometry

end CoolOnline
