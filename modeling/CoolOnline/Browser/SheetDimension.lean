import CoolOnline.Library.BinarySearch
import CoolOnline.Library.RunLength
import Mathlib.Algebra.BigOperators.Intervals
import Mathlib.Algebra.Order.Floor.Ring
import Mathlib.Data.Int.ConditionallyCompleteOrder
import Mathlib.Data.Rat.Floor
import Mathlib.Tactic.FieldSimp
import Mathlib.Tactic.Linarith
import Mathlib.Tactic.Ring

/-! # The positions of columns and rows

`SpanList` and `SheetDimension` of `browser/src/layer/tile/SheetGeometry.ts`. The elements of a
sheet dimension are its columns or its rows. Their sizes come as spans of elements of one size, and
where each span ends is kept with it, in core pixels, in tile twips and in print twips. Numbers are
exact.
-/

namespace CoolOnline

open Finset Run

namespace SheetGeometry

/-- The custom data of a span. -/
structure PositionData where
  sizecore : Int
  poscorepx : Int
  postiletwips : Int
  posprinttwips : Int

/-- `SpanData`: `index` is the last element of the span, `value` the size of each in twips. -/
structure SpanData where
  span : Run Nat
  data : PositionData

structure SpanViewData where
  start : Nat
  finish : Nat
  size : Nat
  data : PositionData

inductive GeometryUnit
  | corepixels | tiletwips | printtwips
deriving DecidableEq

structure DimensionPosSize where
  startpos : Int
  size : Int
deriving DecidableEq

/-- The direction at a place, from what is there, in front of it and behind it. -/
def directionAt {σ : Type*} (array : List σ)
    (directionProvider : Option σ → σ → Option σ → Ordering) (i : Nat) : Ordering :=
  match array[i]? with
  | some curSpan => directionProvider (if i = 0 then none else array[i - 1]?) curSpan array[i + 1]?
  | none => .eq

def binarySearch {σ : Type*} (array : List σ)
    (directionProvider : Option σ → σ → Option σ → Ordering) (firstMatch : Bool) : Option Nat :=
  BinarySearch.search (directionAt array directionProvider) array.length firstMatch

namespace SpanList

def spans (spanlist : List SpanData) : List (Run Nat) := spanlist.map SpanData.span

def getSpanData (spanlist : List SpanData) (spanid : Nat) : Option SpanViewData :=
  (spanlist[spanid]?).map fun span =>
    ⟨startOf 0 (spans spanlist) spanid, span.span.index, span.span.value, span.data⟩

def indexDirection (index : Nat) (prevSpan : Option SpanData) (curSpan : SpanData)
    (_nextSpan : Option SpanData) : Ordering :=
  let spanStart := prevSpan.elim 0 (·.span.index + 1)
  if index < spanStart then .lt else if curSpan.span.index < index then .gt else .eq

def searchByIndex (spanlist : List SpanData) (index : Nat) : Option Nat :=
  binarySearch spanlist (indexDirection index) false

def getSpanDataByIndex (spanlist : List SpanData) (index : Nat) : Option SpanViewData :=
  (searchByIndex spanlist index).bind (getSpanData spanlist)

/-- The spans from one on, up to the first that goes beyond `finish`. -/
def visit (spanlist : List SpanData) (finish : Nat) : Nat → Nat → List SpanViewData
  | 0, _ => []
  | fuel + 1, id =>
      match getSpanData spanlist id with
      | none => []
      | some span =>
          span :: if id + 1 < spanlist.length ∧ span.finish ≤ finish then
            visit spanlist finish fuel (id + 1) else []

def forEachSpanInRange (spanlist : List SpanData) (start finish : Nat) : List SpanViewData :=
  if finish < start then []
  else
    match searchByIndex spanlist start with
    | none => []
    | some id => visit spanlist finish spanlist.length id

end SpanList

/-- Rounding is in core pixels, to match core. -/
def sizeCorePxOne (twipsPerCorePixel : ℚ) (size : Nat) : Int := ⌊(size : ℚ) / twipsPerCorePixel⌋

namespace SpanList

def forEachSpan (spanlist : List SpanData) : List SpanViewData :=
  (List.range spanlist.length).filterMap (getSpanData spanlist)

/-- `addCustomDataForEachSpan`, with the positions of `_updatePositions`. -/
def addPositions (twipsPerCorePixel : ℚ) : Int → Int → Int → List (Run Nat) → List SpanData
  | _, _, _, [] => []
  | prevIndex, posCorePx, posPrintTwips, span :: rest =>
      let spanLength := span.index - prevIndex
      let sizecore := sizeCorePxOne twipsPerCorePixel span.value
      let posCorePx := posCorePx + sizecore * spanLength
      let posPrintTwips := posPrintTwips + span.value * spanLength
      ⟨span, sizecore, posCorePx, ⌊(posCorePx : ℚ) * twipsPerCorePixel⌋, posPrintTwips⟩ ::
        addPositions twipsPerCorePixel span.index posCorePx posPrintTwips rest

end SpanList

open SpanList

def updatePositions (twipsPerCorePixel : ℚ) (visibleSizes : List SpanData) : List SpanData :=
  addPositions twipsPerCorePixel (-1) 0 0 (spans visibleSizes)

theorem spans_addPositions (t : ℚ) (prevIndex posCorePx posPrintTwips : Int)
    (runs : List (Run Nat)) :
    spans (addPositions t prevIndex posCorePx posPrintTwips runs) = runs := by
  induction runs generalizing prevIndex posCorePx posPrintTwips with
  | nil => rfl
  | cons run runs ih =>
      rw [addPositions, spans, List.map_cons]
      exact congrArg (run :: ·) (ih _ _ _)

theorem spans_updatePositions (t : ℚ) (visibleSizes : List SpanData) :
    spans (updatePositions t visibleSizes) = spans visibleSizes := spans_addPositions t _ _ _ _

/-- A dimension whose spans are in order and have the positions that they have at its zoom. -/
structure SheetDimension where
  visibleSizes : List SpanData
  maxIndex : Nat
  tileSizeTwips : ℚ
  tileSizePixels : ℚ
  twips_pos : 0 < tileSizeTwips
  pixels_pos : 0 < tileSizePixels
  ascending : (spans visibleSizes).Pairwise (·.index < ·.index)
  placed : updatePositions (tileSizeTwips / tileSizePixels) visibleSizes = visibleSizes

namespace SheetDimension

def twipsPerCorePixel (dim : SheetDimension) : ℚ := dim.tileSizeTwips / dim.tileSizePixels

def coreZoomFactor (dim : SheetDimension) : ℚ := dim.tileSizePixels * 15 / dim.tileSizeTwips

/-- Tiles of 3840 twips, which are 256 pixels at 15 twips for a pixel. -/
theorem twips_pos_3840 : (0 : ℚ) < 3840 := by norm_num

theorem pixels_pos_256 : (0 : ℚ) < 256 := by norm_num

/-- A dimension without spans, with the tile geometry that it has from the start. -/
def new (tileSizeTwips tileSizePixels : ℚ) (twips_pos : 0 < tileSizeTwips)
    (pixels_pos : 0 < tileSizePixels) : SheetDimension where
  visibleSizes := []
  maxIndex := 0
  tileSizeTwips := tileSizeTwips
  tileSizePixels := tileSizePixels
  twips_pos := twips_pos
  pixels_pos := pixels_pos
  ascending := List.Pairwise.nil
  placed := rfl

/-- `_updateVisible`, with the sizes that it has merged. -/
def updateVisible (dim : SheetDimension) (visibleSizes : List (Run Nat))
    (ascending : visibleSizes.Pairwise (·.index < ·.index)) : SheetDimension :=
  { dim with
    visibleSizes := addPositions dim.twipsPerCorePixel (-1) 0 0 visibleSizes
    ascending := by rwa [spans_addPositions]
    placed := by
      rw [updatePositions, spans_addPositions]
      rfl }

def setMaxIndex (dim : SheetDimension) (maxIndex : Nat) : SheetDimension :=
  { dim with maxIndex := maxIndex }

def setTileGeometryData (dim : SheetDimension) (tileSizeTwips tileSizePixels : ℚ)
    (twips_pos : 0 < tileSizeTwips) (pixels_pos : 0 < tileSizePixels) : SheetDimension :=
  if dim.tileSizeTwips = tileSizeTwips ∧ dim.tileSizePixels = tileSizePixels then dim
  else
    { dim with
      visibleSizes := updatePositions (tileSizeTwips / tileSizePixels) dim.visibleSizes
      tileSizeTwips := tileSizeTwips
      tileSizePixels := tileSizePixels
      twips_pos := twips_pos
      pixels_pos := pixels_pos
      ascending := by
        rw [spans_updatePositions]
        exact dim.ascending
      placed := by
        rw [updatePositions, spans_updatePositions]
        rfl }

/-- `_getElementDataAnyFromSpanByIndex` -/
def getElementDataAnyFromSpanByIndex (dim : SheetDimension) (index : Int) (span : SpanViewData)
    (unitName : GeometryUnit) : Option DimensionPosSize :=
  if index < span.start ∨ span.finish < index then none
  else
    let numSizes := span.finish - index + 1
    let startCorePx := span.data.poscorepx - span.data.sizecore * numSizes
    match unitName with
    | .corepixels => some ⟨startCorePx, span.data.sizecore⟩
    | .printtwips => some ⟨span.data.posprinttwips - span.size * numSizes, span.size⟩
    | .tiletwips =>
        some ⟨⌊(startCorePx : ℚ) * dim.twipsPerCorePixel⌋,
          ⌊(span.data.sizecore : ℚ) * dim.twipsPerCorePixel⌋⟩

def getElementDataAny (dim : SheetDimension) (index : Nat) (unitName : GeometryUnit) :
    Option DimensionPosSize :=
  (getSpanDataByIndex dim.visibleSizes index).bind fun span =>
    dim.getElementDataAnyFromSpanByIndex index span unitName

/-- What is added for a span when the positions are for another zoom. -/
def zoomSpan (index : Nat) (zoomScale : ℚ) (result : DimensionPosSize) (spanData : SpanViewData) :
    DimensionPosSize :=
  let count := (spanData.finish : Int) - spanData.start + 1
  let sizeOneCorePx := ⌊(spanData.size : ℚ) * zoomScale / 15⌋
  if spanData.finish < index then ⟨result.startpos + sizeOneCorePx * count, result.size⟩
  else if spanData.start ≤ index ∧ index ≤ spanData.finish then
    ⟨result.startpos + sizeOneCorePx * ((index : Int) - spanData.start), sizeOneCorePx⟩
  else result

def getElementData (dim : SheetDimension) (index : Nat) (zoomScale : Option ℚ) :
    Option DimensionPosSize :=
  match zoomScale with
  | some zoomScale =>
      some ((forEachSpanInRange dim.visibleSizes 0 index).foldl (zoomSpan index zoomScale) ⟨0, 0⟩)
  | none => dim.getElementDataAny index .corepixels

end SheetDimension

/-! ## Where elements are -/

/-- Where an element begins, from the sizes of those in front of it. -/
def startCorePx (twipsPerCorePixel : ℚ) (sizes : Nat → Nat) (index : Nat) : Int :=
  ∑ k ∈ range index, sizeCorePxOne twipsPerCorePixel (sizes k)

def startPrintTwips (sizes : Nat → Nat) (index : Nat) : Int := ∑ k ∈ range index, (sizes k : Int)

/-- A span with its custom data. -/
def place (twipsPerCorePixel : ℚ) (sizes : Nat → Nat) (run : Run Nat) : SpanData :=
  let posCorePx := startCorePx twipsPerCorePixel sizes (run.index + 1)
  ⟨run, sizeCorePxOne twipsPerCorePixel run.value, posCorePx, ⌊(posCorePx : ℚ) * twipsPerCorePixel⌋,
    startPrintTwips sizes (run.index + 1)⟩

section Placed

variable {t : ℚ} {sizes : Nat → Nat} {start stop m : Nat} {runs : List (Run Nat)}

/-- A sum that goes on over elements of one size. -/
theorem sum_range_of_eq (f : Nat → Int) (size : Int) (hstart : start ≤ m)
    (h : ∀ k, start ≤ k → k < m → f k = size) :
    ∑ k ∈ range m, f k = ∑ k ∈ range start, f k + size * ((m : Int) - start) := by
  induction hstart with
  | refl => simp
  | @step m hstart ih =>
      rw [sum_range_succ, ih fun k hk hlt => h k hk (Nat.lt_succ_of_lt hlt),
        h m hstart (Nat.lt_succ_self m)]
      push_cast
      ring

theorem addPositions_eq_map (h : Covers sizes start stop runs) :
    addPositions t ((start : Int) - 1) (startCorePx t sizes start) (startPrintTwips sizes start)
      runs = runs.map (place t sizes) := by
  induction runs generalizing start with
  | nil => rfl
  | cons run runs ih =>
      rcases h with ⟨hle, hvalue, hrest⟩
      have hlength : (run.index : Int) - ((start : Int) - 1) =
          ((run.index + 1 : Nat) : Int) - start := by
        push_cast
        ring
      have hcore : startCorePx t sizes start + sizeCorePxOne t run.value *
          ((run.index : Int) - ((start : Int) - 1)) = startCorePx t sizes (run.index + 1) := by
        rw [hlength]
        exact (sum_range_of_eq _ _ (by omega) fun k hk hlt => by rw [hvalue k hk (by omega)]).symm
      have hprint : startPrintTwips sizes start + run.value *
          ((run.index : Int) - ((start : Int) - 1)) = startPrintTwips sizes (run.index + 1) := by
        rw [hlength]
        exact (sum_range_of_eq _ _ (by omega) fun k hk hlt => by rw [hvalue k hk (by omega)]).symm
      have hprev : (run.index : Int) = ((run.index + 1 : Nat) : Int) - 1 := by
        push_cast
        ring
      rw [addPositions]
      simp only [hcore, hprint]
      rw [List.map_cons, ← ih hrest, ← hprev]
      rfl

end Placed

namespace SheetDimension

variable {dim : SheetDimension} {i k : Nat} {run : Run Nat}

/-- The size of each element in print twips. -/
def sizes (dim : SheetDimension) : Nat → Nat := valueAt (spans dim.visibleSizes)

/-- The first element of a span. -/
def startIndex (dim : SheetDimension) (i : Nat) : Nat := startOf 0 (spans dim.visibleSizes) i

def elementCount (dim : SheetDimension) : Nat := dim.startIndex (spans dim.visibleSizes).length

/-- Where an element begins, in a unit. -/
def startPos (dim : SheetDimension) : GeometryUnit → Nat → Int
  | .corepixels, index => startCorePx dim.twipsPerCorePixel dim.sizes index
  | .tiletwips, index =>
      ⌊(startCorePx dim.twipsPerCorePixel dim.sizes index : ℚ) * dim.twipsPerCorePixel⌋
  | .printtwips, index => startPrintTwips dim.sizes index

/-- How large an element is, in a unit. -/
def sizeOf (dim : SheetDimension) : GeometryUnit → Nat → Int
  | .corepixels, index => sizeCorePxOne dim.twipsPerCorePixel (dim.sizes index)
  | .tiletwips, index =>
      ⌊(sizeCorePxOne dim.twipsPerCorePixel (dim.sizes index) : ℚ) * dim.twipsPerCorePixel⌋
  | .printtwips, index => dim.sizes index

theorem sizes_updateVisible (runs : List (Run Nat))
    (ascending : runs.Pairwise (·.index < ·.index)) :
    (dim.updateVisible runs ascending).sizes = valueAt runs := by
  rw [sizes, updateVisible, spans_addPositions]

theorem elementCount_updateVisible (runs : List (Run Nat))
    (ascending : runs.Pairwise (·.index < ·.index)) :
    (dim.updateVisible runs ascending).elementCount = startOf 0 runs runs.length := by
  rw [elementCount, startIndex, updateVisible, spans_addPositions]

theorem twipsPerCorePixel_pos (dim : SheetDimension) : 0 < dim.twipsPerCorePixel :=
  div_pos dim.twips_pos dim.pixels_pos

theorem covers (dim : SheetDimension) :
    Covers dim.sizes 0 dim.elementCount (spans dim.visibleSizes) :=
  covers_valueAt dim.ascending (fun _ _ => Nat.zero_le _) startOf_length.symm

theorem length_spans (dim : SheetDimension) :
    (spans dim.visibleSizes).length = dim.visibleSizes.length := List.length_map _

theorem startIndex_mono {j : Nat} (hij : i ≤ j) (hj : j ≤ dim.visibleSizes.length) :
    dim.startIndex i ≤ dim.startIndex j :=
  dim.covers.startOf_mono hij (by rwa [length_spans])

theorem startIndex_succ (hrun : (spans dim.visibleSizes)[i]? = some run) :
    dim.startIndex (i + 1) = run.index + 1 := startOf_succ hrun

/-- The elements of a span and their size. -/
theorem span_bounds (hrun : (spans dim.visibleSizes)[i]? = some run) :
    dim.startIndex i ≤ run.index ∧ run.index < dim.elementCount ∧
      ∀ k, dim.startIndex i ≤ k → k ≤ run.index → dim.sizes k = run.value :=
  dim.covers.getElem? hrun

theorem visibleSizes_eq (dim : SheetDimension) :
    dim.visibleSizes = (spans dim.visibleSizes).map (place dim.twipsPerCorePixel dim.sizes) := by
  have hmap := addPositions_eq_map (t := dim.twipsPerCorePixel) dim.covers
  simp only [startCorePx, startPrintTwips, range_zero, sum_empty] at hmap
  exact dim.placed.symm.trans hmap

theorem getElem?_visibleSizes (hrun : (spans dim.visibleSizes)[i]? = some run) :
    dim.visibleSizes[i]? = some (place dim.twipsPerCorePixel dim.sizes run) := by
  rw [visibleSizes_eq, List.getElem?_map, hrun]
  rfl

/-- A span as `getSpanData` shows it. -/
def spanView (dim : SheetDimension) (i : Nat) (run : Run Nat) : SpanViewData :=
  ⟨dim.startIndex i, run.index, run.value, (place dim.twipsPerCorePixel dim.sizes run).data⟩

@[simp] theorem spanView_start : (dim.spanView i run).start = dim.startIndex i := rfl

@[simp] theorem spanView_finish : (dim.spanView i run).finish = run.index := rfl

@[simp] theorem spanView_size : (dim.spanView i run).size = run.value := rfl

theorem getSpanData_eq (hrun : (spans dim.visibleSizes)[i]? = some run) :
    getSpanData dim.visibleSizes i = some (dim.spanView i run) := by
  rw [getSpanData, getElem?_visibleSizes hrun]
  rfl

/-! ## The span of an element -/

/-- The last element of a span. -/
def lastOf (dim : SheetDimension) (i : Nat) : Nat :=
  ((spans dim.visibleSizes)[i]?).elim 0 (·.index)

theorem lastOf_eq (hrun : (spans dim.visibleSizes)[i]? = some run) : dim.lastOf i = run.index := by
  rw [lastOf, hrun]
  rfl

theorem startIndex_lastOf (hi : i < dim.visibleSizes.length) :
    dim.startIndex (i + 1) = dim.lastOf i + 1 := by
  rw [← length_spans] at hi
  rw [startIndex_succ (List.getElem?_eq_getElem hi), lastOf_eq (List.getElem?_eq_getElem hi)]

theorem lastOf_lt_startIndex {j : Nat} (hij : i < j) (hj : j < dim.visibleSizes.length) :
    dim.lastOf i < dim.startIndex j := by
  have hmono : dim.startIndex (i + 1) ≤ dim.startIndex j := startIndex_mono hij (Nat.le_of_lt hj)
  rwa [startIndex_lastOf (by omega)] at hmono

theorem startIndex_le_lastOf (hi : i < dim.visibleSizes.length) :
    dim.startIndex i ≤ dim.lastOf i ∧ dim.lastOf i < dim.elementCount := by
  rw [← length_spans] at hi
  rw [lastOf_eq (List.getElem?_eq_getElem hi)]
  have hrun := span_bounds (List.getElem?_eq_getElem hi)
  exact ⟨hrun.1, hrun.2.1⟩

theorem lastOf_mono {j : Nat} (hij : i ≤ j) (hj : j < dim.visibleSizes.length) :
    dim.lastOf i ≤ dim.lastOf j := by
  rcases Nat.eq_or_lt_of_le hij with rfl | hlt
  · exact Nat.le_refl _
  · have hstart := lastOf_lt_startIndex hlt hj
    have hlast := startIndex_le_lastOf hj
    omega

/-- The directions of `_searchByIndex` are those of the intervals of elements. -/
theorem directionAt_indexDirection (dim : SheetDimension) (index j : Nat)
    (hj : j < dim.visibleSizes.length) :
    directionAt dim.visibleSizes (indexDirection index) j =
      BinarySearch.side (dim.startIndex) dim.lastOf index j := by
  have hspan : ∀ i (hi : i < dim.visibleSizes.length),
      (spans dim.visibleSizes)[i]? = some dim.visibleSizes[i].span := fun i hi => by
    rw [spans, List.getElem?_map, List.getElem?_eq_getElem hi]
    rfl
  rw [directionAt, List.getElem?_eq_getElem hj, BinarySearch.side, lastOf_eq (hspan j hj)]
  cases j with
  | zero => rfl
  | succ j =>
      rw [startIndex_succ (hspan j (by omega))]
      simp [indexDirection, List.getElem?_eq_getElem (Nat.lt_of_succ_lt hj)]

theorem searchByIndex_eq (hi : i < dim.visibleSizes.length)
    (hstart : dim.startIndex i ≤ k) (hlast : k ≤ dim.lastOf i) :
    searchByIndex dim.visibleSizes k = some i :=
  BinarySearch.search_eq_of_mem (dim.directionAt_indexDirection k)
    (fun _ _ hij hj => startIndex_mono hij (Nat.le_of_lt hj))
    (fun _ _ hij hj => lastOf_mono hij hj) (fun _ _ hij hj => lastOf_lt_startIndex hij hj) hi hstart
    hlast

theorem searchByIndex_eq_none (hk : dim.elementCount ≤ k) :
    searchByIndex dim.visibleSizes k = none :=
  BinarySearch.search_eq_none_of_not_mem (dim.directionAt_indexDirection k) fun _ hj _ =>
    Nat.lt_of_lt_of_le (startIndex_le_lastOf hj).2 hk

/-- The span that an element is in. -/
theorem exists_span (hk : k < dim.elementCount) :
    ∃ i run, (spans dim.visibleSizes)[i]? = some run ∧
      dim.startIndex i ≤ k ∧ k ≤ run.index :=
  dim.covers.exists_run (Nat.zero_le k) hk

theorem searchByIndex_of_span (hrun : (spans dim.visibleSizes)[i]? = some run)
    (hstart : dim.startIndex i ≤ k) (hlast : k ≤ run.index) :
    searchByIndex dim.visibleSizes k = some i := by
  refine searchByIndex_eq ?_ hstart ?_
  · rw [← length_spans]
    exact (List.getElem?_eq_some_iff.mp hrun).1
  · rwa [lastOf_eq hrun]

/-! ## Positions inside a span -/

/-- From the end of its span, where an element begins, by the sum of what the elements before it
measure. -/
theorem sum_range_of_span (measure : Nat → Int) (hrun : (spans dim.visibleSizes)[i]? = some run)
    (hstart : dim.startIndex i ≤ k) (hlast : k ≤ run.index + 1) :
    ∑ j ∈ range (run.index + 1), measure (dim.sizes j) -
        measure run.value * ((run.index : Int) - k + 1) =
      ∑ j ∈ range k, measure (dim.sizes j) := by
  have hvalue := (span_bounds hrun).2.2
  rw [sum_range_of_eq (fun j => measure (dim.sizes j)) (measure run.value) hlast fun j hj hlt => by
    rw [hvalue j (by omega) (by omega)]]
  push_cast
  ring

theorem startCorePx_of_span (hrun : (spans dim.visibleSizes)[i]? = some run)
    (hstart : dim.startIndex i ≤ k) (hlast : k ≤ run.index + 1) :
    startCorePx dim.twipsPerCorePixel dim.sizes (run.index + 1) -
      sizeCorePxOne dim.twipsPerCorePixel run.value * ((run.index : Int) - k + 1) =
      startCorePx dim.twipsPerCorePixel dim.sizes k :=
  sum_range_of_span (sizeCorePxOne dim.twipsPerCorePixel) hrun hstart hlast

theorem startPrintTwips_of_span (hrun : (spans dim.visibleSizes)[i]? = some run)
    (hstart : dim.startIndex i ≤ k) (hlast : k ≤ run.index + 1) :
    startPrintTwips dim.sizes (run.index + 1) - run.value * ((run.index : Int) - k + 1) =
      startPrintTwips dim.sizes k :=
  sum_range_of_span (fun size => (size : Int)) hrun hstart hlast

theorem getElementDataAnyFromSpanByIndex_eq (unitName : GeometryUnit)
    (hrun : (spans dim.visibleSizes)[i]? = some run)
    (hstart : dim.startIndex i ≤ k) (hlast : k ≤ run.index) :
    dim.getElementDataAnyFromSpanByIndex k (dim.spanView i run) unitName =
      some ⟨dim.startPos unitName k, dim.sizeOf unitName k⟩ := by
  have hin : ¬ ((k : Int) < dim.startIndex i ∨ (run.index : Int) < k) := by omega
  have hvalue := (span_bounds hrun).2.2 k hstart hlast
  have hcore := startCorePx_of_span hrun hstart (Nat.le_succ_of_le hlast)
  have hprint := startPrintTwips_of_span hrun hstart (Nat.le_succ_of_le hlast)
  rw [getElementDataAnyFromSpanByIndex, spanView, if_neg hin]
  cases unitName with
  | corepixels => simp only [place, hcore, startPos, sizeOf, hvalue]
  | tiletwips => simp only [place, hcore, startPos, sizeOf, hvalue]
  | printtwips => simp only [place, hprint, startPos, sizeOf, hvalue]

theorem getElementDataAny_eq (unitName : GeometryUnit) (hk : k < dim.elementCount) :
    dim.getElementDataAny k unitName = some ⟨dim.startPos unitName k, dim.sizeOf unitName k⟩ := by
  rcases exists_span hk with ⟨i, run, hrun, hstart, hlast⟩
  rw [getElementDataAny, getSpanDataByIndex, searchByIndex_of_span hrun hstart hlast,
    Option.bind_some, getSpanData_eq hrun, Option.bind_some]
  exact getElementDataAnyFromSpanByIndex_eq unitName hrun hstart hlast

theorem getElementDataAny_eq_none (unitName : GeometryUnit) (hk : dim.elementCount ≤ k) :
    dim.getElementDataAny k unitName = none := by
  rw [getElementDataAny, getSpanDataByIndex, searchByIndex_eq_none hk]
  rfl

@[simp] theorem startPos_zero (unitName : GeometryUnit) : dim.startPos unitName 0 = 0 := by
  cases unitName <;> simp [startPos, startCorePx, startPrintTwips]

theorem startPos_succ {unitName : GeometryUnit} (hunit : unitName ≠ .tiletwips) (k : Nat) :
    dim.startPos unitName (k + 1) = dim.startPos unitName k + dim.sizeOf unitName k := by
  cases unitName with
  | tiletwips => exact absurd rfl hunit
  | corepixels => exact sum_range_succ _ k
  | printtwips => exact sum_range_succ _ k

theorem sizeCorePxOne_nonneg (dim : SheetDimension) (size : Nat) :
    0 ≤ sizeCorePxOne dim.twipsPerCorePixel size :=
  Int.floor_nonneg.mpr (div_nonneg (Nat.cast_nonneg size) dim.twipsPerCorePixel_pos.le)

theorem startCorePx_mono (dim : SheetDimension) :
    Monotone (startCorePx dim.twipsPerCorePixel dim.sizes) := by
  refine monotone_nat_of_le_succ fun k => ?_
  rw [startCorePx, startCorePx, sum_range_succ]
  have hsize := dim.sizeCorePxOne_nonneg (dim.sizes k)
  omega

theorem startPos_mono (dim : SheetDimension) (unitName : GeometryUnit) :
    Monotone (dim.startPos unitName) := by
  cases unitName with
  | corepixels => exact dim.startCorePx_mono
  | tiletwips =>
      intro k m hkm
      have hcore : (startCorePx dim.twipsPerCorePixel dim.sizes k : ℚ) ≤
          startCorePx dim.twipsPerCorePixel dim.sizes m :=
        Int.cast_le.mpr (dim.startCorePx_mono hkm)
      exact Int.floor_mono (mul_le_mul_of_nonneg_right hcore dim.twipsPerCorePixel_pos.le)
  | printtwips =>
      refine monotone_nat_of_le_succ fun k => ?_
      rw [startPos_succ (by simp)]
      simp [sizeOf]

/-! ## All spans one after the other -/

/-- The spans as `getSpanData` shows them. -/
def views (twipsPerCorePixel : ℚ) (sizes : Nat → Nat) : Nat → List (Run Nat) → List SpanViewData
  | _, [] => []
  | start, run :: runs =>
      ⟨start, run.index, run.value, (place twipsPerCorePixel sizes run).data⟩ ::
        views twipsPerCorePixel sizes (run.index + 1) runs

theorem getElem?_views (t : ℚ) (sizes : Nat → Nat) (start : Nat) (runs : List (Run Nat)) (i : Nat) :
    (views t sizes start runs)[i]? = (runs[i]?).map fun run =>
      ⟨startOf start runs i, run.index, run.value, (place t sizes run).data⟩ := by
  induction runs generalizing start i with
  | nil => rfl
  | cons run runs ih =>
      cases i with
      | zero => rfl
      | succ i =>
          rw [views, List.getElem?_cons_succ, List.getElem?_cons_succ, ih]
          cases hrun : runs[i]? with
          | none => rfl
          | some next =>
              rw [startOf_succ_cons run (Nat.le_of_lt (List.getElem?_eq_some_iff.mp hrun).1)]

theorem filterMap_getElem?_range {α : Type} (l : List α) :
    (List.range l.length).filterMap (l[·]?) = l := by
  induction l with
  | nil => rfl
  | cons x l ih =>
      rw [List.length_cons, List.range_succ_eq_map, List.filterMap_cons]
      simp only [List.getElem?_cons_zero, List.filterMap_map]
      exact congrArg (x :: ·) ih

theorem forEachSpan_eq (dim : SheetDimension) :
    forEachSpan dim.visibleSizes =
      views dim.twipsPerCorePixel dim.sizes 0 (spans dim.visibleSizes) := by
  have hget : ∀ i, getSpanData dim.visibleSizes i =
      (views dim.twipsPerCorePixel dim.sizes 0 (spans dim.visibleSizes))[i]? := by
    intro i
    rw [getElem?_views]
    cases hrun : (spans dim.visibleSizes)[i]? with
    | none =>
        have hnone : dim.visibleSizes[i]? = none := by
          rw [spans, List.getElem?_map] at hrun
          exact Option.map_eq_none_iff.mp hrun
        rw [getSpanData, hnone]
        rfl
    | some run => exact getSpanData_eq hrun
  have hlength : (views dim.twipsPerCorePixel dim.sizes 0 (spans dim.visibleSizes)).length =
      dim.visibleSizes.length := by
    rw [← length_spans]
    generalize spans dim.visibleSizes = runs
    generalize 0 = start
    induction runs generalizing start with
    | nil => rfl
    | cons run runs ih => rw [views, List.length_cons, List.length_cons, ih]
  rw [forEachSpan, ← hlength, funext hget]
  exact filterMap_getElem?_range _

/-- A span with the size and the positions that its elements have. -/
structure SpanAt (dim : SheetDimension) (spanData : SpanViewData) : Prop where
  start_le : spanData.start ≤ spanData.finish
  finish_lt : spanData.finish < dim.elementCount
  value : ∀ k, spanData.start ≤ k → k ≤ spanData.finish → dim.sizes k = spanData.size
  sizecore : spanData.data.sizecore = sizeCorePxOne dim.twipsPerCorePixel spanData.size
  poscorepx : spanData.data.poscorepx = dim.startPos .corepixels (spanData.finish + 1)

/-- The spans from an element on, one behind the other. -/
def Follow (dim : SheetDimension) : Nat → List SpanViewData → Prop
  | start, [] => start = dim.elementCount
  | start, spanData :: rest =>
      spanData.start = start ∧ dim.SpanAt spanData ∧ Follow dim (spanData.finish + 1) rest

theorem follow_forEachSpan (dim : SheetDimension) : dim.Follow 0 (forEachSpan dim.visibleSizes) := by
  have hviews : ∀ {start : Nat} {runs : List (Run Nat)},
      Covers dim.sizes start dim.elementCount runs →
        dim.Follow start (views dim.twipsPerCorePixel dim.sizes start runs) := by
    intro start runs h
    induction runs generalizing start with
    | nil => exact h
    | cons run runs ih =>
        rcases h with ⟨hle, hvalue, hrest⟩
        exact ⟨rfl, ⟨hle, hrest.start_le, hvalue, rfl, rfl⟩, ih hrest⟩
  rw [forEachSpan_eq]
  exact hviews dim.covers

variable {spanData : SpanViewData} {front back : List SpanViewData} {start : Nat}

theorem Follow.spanAt_of_mem (h : dim.Follow start back) (hmem : spanData ∈ back) :
    dim.SpanAt spanData := by
  induction back generalizing start with
  | nil => cases hmem
  | cons first back ih =>
      rcases h with ⟨-, hspan, hrest⟩
      rcases List.mem_cons.mp hmem with rfl | hmem
      · exact hspan
      · exact ih hrest hmem

theorem spanAt_of_mem (hmem : spanData ∈ forEachSpan dim.visibleSizes) : dim.SpanAt spanData :=
  dim.follow_forEachSpan.spanAt_of_mem hmem

theorem SpanAt.startPos_eq (h : dim.SpanAt spanData) (hstart : spanData.start ≤ k)
    (hlast : k ≤ spanData.finish + 1) :
    dim.startPos .corepixels k = dim.startPos .corepixels spanData.start +
      spanData.data.sizecore * ((k : Int) - spanData.start) :=
  sum_range_of_eq _ _ hstart fun j hj hlt => by rw [h.value j hj (by omega), h.sizecore]

/-- The elements of a span. -/
def elementsOf (spanData : SpanViewData) : List Nat :=
  List.range' spanData.start (spanData.finish + 1 - spanData.start)

theorem mem_elementsOf : k ∈ elementsOf spanData ↔ spanData.start ≤ k ∧ k ≤ spanData.finish := by
  rw [elementsOf, List.mem_range'_1]
  omega

theorem SpanAt.sizeOf_eq (h : dim.SpanAt spanData) (hstart : spanData.start ≤ k)
    (hlast : k ≤ spanData.finish) : dim.sizeOf .corepixels k = spanData.data.sizecore := by
  rw [sizeOf, h.value k hstart hlast, h.sizecore]

theorem Follow.start_le (h : dim.Follow start back) : start ≤ dim.elementCount := by
  induction back generalizing start with
  | nil => exact Nat.le_of_eq h
  | cons spanData back ih =>
      rcases h with ⟨rfl, hspan, hrest⟩
      exact Nat.le_trans hspan.start_le (Nat.le_of_lt hspan.finish_lt)

/-- The spans have all elements, each once and in order. -/
theorem Follow.flatMap_elementsOf (h : dim.Follow start back) :
    back.flatMap elementsOf = List.range' start (dim.elementCount - start) := by
  induction back generalizing start with
  | nil =>
      rw [Follow] at h
      rw [h, Nat.sub_self]
      rfl
  | cons spanData back ih =>
      rcases h with ⟨rfl, hspan, hrest⟩
      have hle := hspan.start_le
      have hstop := hrest.start_le
      have hnext : spanData.finish + 1 =
          spanData.start + (spanData.finish + 1 - spanData.start) := by omega
      rw [List.flatMap_cons, ih hrest, elementsOf, hnext, Nat.add_sub_cancel_left,
        List.range'_append_1]
      congr 1
      omega

theorem flatMap_elementsOf (dim : SheetDimension) :
    (forEachSpan dim.visibleSizes).flatMap elementsOf = List.range dim.elementCount := by
  rw [dim.follow_forEachSpan.flatMap_elementsOf, Nat.sub_zero, List.range_eq_range']

/-! ## The sizes at another zoom -/

section Zoom

variable {zoomScale : ℚ} {size : Int}

/-- The size of an element in core pixels at a zoom. -/
def sizeAtZoom (dim : SheetDimension) (zoomScale : ℚ) (k : Nat) : Int :=
  ⌊(dim.sizes k : ℚ) * zoomScale / 15⌋

theorem zoomSpan_of_front {result : DimensionPosSize} {span : SpanViewData} (h : span.finish < k) :
    zoomSpan k zoomScale result span = ⟨result.startpos + ⌊(span.size : ℚ) * zoomScale / 15⌋ *
      ((span.finish : Int) - span.start + 1), result.size⟩ := by
  rw [zoomSpan]
  simp only [if_pos h]

theorem zoomSpan_of_mem {result : DimensionPosSize} {span : SpanViewData} (hstart : span.start ≤ k)
    (hlast : k ≤ span.finish) :
    zoomSpan k zoomScale result span = ⟨result.startpos + ⌊(span.size : ℚ) * zoomScale / 15⌋ *
      ((k : Int) - span.start), ⌊(span.size : ℚ) * zoomScale / 15⌋⟩ := by
  rw [zoomSpan]
  simp only [if_neg (Nat.not_lt.mpr hlast), if_pos (And.intro hstart hlast)]

theorem zoomSpan_of_behind {result : DimensionPosSize} {span : SpanViewData}
    (hle : span.start ≤ span.finish) (h : k < span.start) :
    zoomSpan k zoomScale result span = result := by
  rw [zoomSpan, if_neg (by omega), if_neg (by omega)]

/-- Spans behind the element add nothing. -/
theorem foldl_visit_of_lt (fuel : Nat) (result : DimensionPosSize)
    (hlt : k < dim.startIndex i) :
    (visit dim.visibleSizes k fuel i).foldl (zoomSpan k zoomScale) result = result := by
  cases fuel with
  | zero => rfl
  | succ fuel =>
      rw [visit]
      cases hrun : (spans dim.visibleSizes)[i]? with
      | none =>
          have hnone : dim.visibleSizes[i]? = none := by
            rw [spans, List.getElem?_map] at hrun
            exact Option.map_eq_none_iff.mp hrun
          rw [getSpanData, hnone]
          rfl
      | some run =>
          have hle := (span_bounds hrun).1
          rw [getSpanData_eq hrun]
          simp only
          rw [if_neg (by simp; omega), List.foldl_cons, List.foldl_nil]
          exact zoomSpan_of_behind hle hlt

/-- The spans up to that of the element are added up. -/
theorem foldl_visit (hrun : (spans dim.visibleSizes)[i]? = some run)
    (hstart : dim.startIndex i ≤ k) (hlast : k ≤ run.index) {fuel id : Nat}
    (hid : id ≤ i) (hfuel : i < id + fuel) :
    (visit dim.visibleSizes k fuel id).foldl (zoomSpan k zoomScale)
        ⟨∑ j ∈ range (dim.startIndex id), dim.sizeAtZoom zoomScale j, size⟩ =
      ⟨∑ j ∈ range k, dim.sizeAtZoom zoomScale j, dim.sizeAtZoom zoomScale k⟩ := by
  have hlength : i < dim.visibleSizes.length := by
    rw [← length_spans]
    exact (List.getElem?_eq_some_iff.mp hrun).1
  induction fuel generalizing id size with
  | zero => omega
  | succ fuel ih =>
      rw [visit]
      rcases Nat.eq_or_lt_of_le hid with rfl | hlt
      · have hvalue := (span_bounds hrun).2.2
        have hone : ∀ j, dim.startIndex id ≤ j → j ≤ run.index →
            dim.sizeAtZoom zoomScale j = ⌊(run.value : ℚ) * zoomScale / 15⌋ := fun j hj hle => by
          rw [sizeAtZoom, hvalue j hj hle]
        have hsum := sum_range_of_eq (dim.sizeAtZoom zoomScale) _ hstart fun j hj hlt =>
          hone j hj (by omega)
        rw [getSpanData_eq hrun]
        simp only
        rw [List.foldl_cons, zoomSpan_of_mem hstart hlast, spanView_start, spanView_size, ← hsum,
          ← hone k hstart hlast]
        split
        · exact foldl_visit_of_lt fuel _ (by rw [startIndex_succ hrun]; omega)
        · rfl
      · have hin : id < (spans dim.visibleSizes).length := by
          rw [length_spans]
          omega
        have hspan := List.getElem?_eq_getElem hin
        generalize (spans dim.visibleSizes)[id] = front at hspan
        have hmono : dim.startIndex (id + 1) ≤ dim.startIndex i :=
          startIndex_mono hlt (Nat.le_of_lt hlength)
        have hnext := startIndex_succ hspan
        have hbounds := span_bounds hspan
        have hsum := sum_range_of_eq (m := front.index + 1) (dim.sizeAtZoom zoomScale)
          ⌊(front.value : ℚ) * zoomScale / 15⌋ (Nat.le_succ_of_le hbounds.1) fun j hj hlt => by
            rw [sizeAtZoom, hbounds.2.2 j hj (by omega)]
        rw [getSpanData_eq hspan]
        simp only
        rw [if_pos ⟨by omega, by simp; omega⟩, List.foldl_cons,
          zoomSpan_of_front (by simp; omega), spanView_start, spanView_finish, spanView_size]
        have hcount : (front.index : Int) - dim.startIndex id + 1 =
            ((front.index + 1 : Nat) : Int) - dim.startIndex id := by
          push_cast
          ring
        rw [hcount, ← hsum, ← hnext]
        exact ih hlt (by omega)

theorem getElementData_zoom (zoomScale : ℚ) (hk : k < dim.elementCount) :
    dim.getElementData k (some zoomScale) =
      some ⟨∑ j ∈ range k, dim.sizeAtZoom zoomScale j, dim.sizeAtZoom zoomScale k⟩ := by
  rcases exists_span hk with ⟨i, run, hrun, hstart, hlast⟩
  have hi := (List.getElem?_eq_some_iff.mp hrun).1
  rw [length_spans] at hi
  have hzero : searchByIndex dim.visibleSizes 0 = some 0 :=
    searchByIndex_eq (by omega) (Nat.le_refl 0) (Nat.zero_le _)
  rw [getElementData, forEachSpanInRange, if_neg (Nat.not_lt_zero k), hzero]
  exact congrArg some (foldl_visit hrun hstart hlast (Nat.zero_le i) (by omega))

theorem sizeAtZoom_coreZoomFactor (k : Nat) :
    dim.sizeAtZoom dim.coreZoomFactor k = sizeCorePxOne dim.twipsPerCorePixel (dim.sizes k) := by
  have htwips := dim.twips_pos.ne'
  have hpixels := dim.pixels_pos.ne'
  rw [sizeAtZoom, sizeCorePxOne, coreZoomFactor, twipsPerCorePixel]
  congr 1
  field_simp

end Zoom

/-- The elements lie one behind the other. In core pixels and print twips each begins where the one
in front of it ends, in tile twips where its core pixels say, and the sums at the zoom that the
dimension has give what the spans have stored. -/
theorem elements_tile (dim : SheetDimension) (i : Nat) (hi : i < dim.elementCount) :
    ∃ data : GeometryUnit → DimensionPosSize,
      (∀ unitName, dim.getElementDataAny i unitName = some (data unitName)) ∧
      (∀ unitName, unitName ≠ .tiletwips → (i = 0 → (data unitName).startpos = 0) ∧
        ∀ next, dim.getElementDataAny (i + 1) unitName = some next →
          next.startpos = (data unitName).startpos + (data unitName).size) ∧
      (data .tiletwips).startpos = ⌊((data .corepixels).startpos : ℚ) * dim.twipsPerCorePixel⌋ ∧
      (∀ k next, i ≤ k → dim.getElementDataAny k .tiletwips = some next →
        (data .tiletwips).startpos ≤ next.startpos) ∧
      dim.getElementData i (some dim.coreZoomFactor) = dim.getElementData i none := by
  have hnext : ∀ {unitName k next}, dim.getElementDataAny k unitName = some next →
      next.startpos = dim.startPos unitName k := by
    intro unitName k next h
    by_cases hk : k < dim.elementCount
    · rw [getElementDataAny_eq unitName hk] at h
      cases h
      rfl
    · rw [getElementDataAny_eq_none unitName (Nat.le_of_not_lt hk)] at h
      cases h
  refine ⟨fun unitName => ⟨dim.startPos unitName i, dim.sizeOf unitName i⟩,
    fun unitName => getElementDataAny_eq unitName hi, fun unitName hunit => ⟨?_, ?_⟩, rfl, ?_, ?_⟩
  · intro hzero
    rw [hzero]
    exact startPos_zero unitName
  · intro next h
    rw [hnext h]
    exact startPos_succ hunit i
  · intro k next hik h
    rw [hnext h]
    exact dim.startPos_mono .tiletwips hik
  · rw [getElementData_zoom _ hi]
    simp only [sizeAtZoom_coreZoomFactor]
    exact (getElementDataAny_eq .corepixels hi).symm

/-- Two columns, a hidden one and two narrower ones, at a zoom with 37/3 twips in a pixel. -/
def fiveColumns : SheetDimension :=
  (new 37 3 (by norm_num) (by norm_num)).updateVisible [⟨1, 1280⟩, ⟨2, 0⟩, ⟨4, 500⟩] (by simp)

theorem elements_tile_fiveColumns :
    fiveColumns.getElementData 3 (some fiveColumns.coreZoomFactor) =
      fiveColumns.getElementData 3 none := by
  have hin : 3 < fiveColumns.elementCount := by
    rw [fiveColumns, elementCount_updateVisible]
    decide
  rcases elements_tile fiveColumns 3 hin with ⟨data, -, -, -, -, hzoom⟩
  exact hzoom

end SheetDimension

end SheetGeometry

end CoolOnline
