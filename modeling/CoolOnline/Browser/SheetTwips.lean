import CoolOnline.Browser.SheetLookup

/-! # Tile twips and print twips

`getTileTwipsPosFromPrint` and `getPrintTwipsPosFromTile` of
`browser/src/layer/tile/SheetGeometry.ts`. A position keeps its offset in the element that is found
for it. With a zoom given, the spans in front of the position are added up instead.
-/

namespace CoolOnline

open Finset Run

namespace SheetGeometry

open SpanList

structure TwipsSum where
  posTT : ℚ
  posPTInc : ℚ

namespace SheetDimension

/-- The start of the element that is found in one unit, in another unit, with the offset from it. -/
def convertPos (dim : SheetDimension) (unitFrom unitTo : GeometryUnit) (pos : ℚ) : Option ℚ :=
  (dim.getSpanAndIndex pos unitFrom).bind fun element =>
    element.span.bind fun span =>
      (dim.getElementDataAnyFromSpanByIndex element.index span unitTo).bind fun dataTo =>
        (dim.getElementDataAnyFromSpanByIndex element.index span unitFrom).map fun dataFrom =>
          dataTo.startpos + (pos - dataFrom.startpos)

def sizeSpanTT (zoomScale : ℚ) (spanData : SpanViewData) : Int :=
  let count := (spanData.finish : Int) - spanData.start + 1
  let sizeOneCorePx := ⌊(spanData.size : ℚ) * zoomScale / 15⌋
  ⌊((sizeOneCorePx * count : Int) : ℚ) * 15 / zoomScale⌋

/-- The callback of `forEachSpan`. -/
def addSpan (zoomScale posPT : ℚ) (result : TwipsSum) (spanData : SpanViewData) : TwipsSum :=
  let count := (spanData.finish : Int) - spanData.start + 1
  let sizeSpanPT := (spanData.size : ℚ) * count
  if posPT ≤ result.posPTInc then result
  else if result.posPTInc + sizeSpanPT < posPT then
    ⟨result.posTT + sizeSpanTT zoomScale spanData, result.posPTInc + sizeSpanPT⟩
  else
    let remainingPT := posPT - result.posPTInc
    let elemCountFinalSpan := ⌊remainingPT / spanData.size⌋
    let extra := remainingPT - elemCountFinalSpan * spanData.size
    ⟨result.posTT + (⌊(elemCountFinalSpan : ℚ) * sizeSpanTT zoomScale spanData / count⌋ + extra),
      posPT⟩

def getTileTwipsPosFromPrint (dim : SheetDimension) (posPT : ℚ) (zoomScale : Option ℚ) :
    Option ℚ :=
  match zoomScale with
  | some zoomScale =>
      some ((forEachSpan dim.visibleSizes).foldl (addSpan zoomScale posPT) ⟨0, 0⟩).posTT
  | none => dim.convertPos .printtwips .tiletwips posPT

def getPrintTwipsPosFromTile (dim : SheetDimension) (posTT : ℚ) : Option ℚ :=
  dim.convertPos .tiletwips .printtwips posTT

/-! ## The element that is found -/

variable {dim : SheetDimension} {i k : Nat} {run : Run Nat} {pos value : ℚ}
  {unitFrom unitTo : GeometryUnit}

theorem convertPos_of_span (hrun : (spans dim.visibleSizes)[i]? = some run)
    (hstart : dim.startIndex i ≤ k) (hlast : k ≤ run.index)
    (h : dim.getSpanAndIndex pos unitFrom = some ⟨k, some (dim.spanView i run)⟩) :
    dim.convertPos unitFrom unitTo pos =
      some (dim.startPos unitTo k + (pos - dim.startPos unitFrom k)) := by
  rw [convertPos, h]
  simp [getElementDataAnyFromSpanByIndex_eq _ hrun hstart hlast]

theorem convertPos_of_finds (hpos : 0 ≤ pos) (hk : k < dim.elementCount)
    (h : dim.Finds unitFrom pos k) :
    dim.convertPos unitFrom unitTo pos =
      some (dim.startPos unitTo k + (pos - dim.startPos unitFrom k)) := by
  obtain ⟨i, run, hrun, hstart, hlast, helement⟩ :=
    getSpanAndIndex_of_finds hpos (fun heq => heq ▸ hk) h
  exact convertPos_of_span hrun hstart hlast helement

/-- A position that is converted is found at an element. -/
theorem finds_of_convertPos (hpos : 0 ≤ pos)
    (h : (dim.convertPos unitFrom unitTo pos).isSome = true) :
    ∃ k < dim.elementCount, dim.Finds unitFrom pos k := by
  rw [convertPos] at h
  cases helement : dim.getSpanAndIndex pos unitFrom with
  | none =>
      rw [helement] at h
      cases h
  | some element =>
      rcases element with ⟨index, span⟩
      cases span with
      | none =>
          rw [helement] at h
          cases h
      | some span =>
          rw [helement] at h
          simp only [Option.bind_some] at h
          have hdata : (dim.getElementDataAnyFromSpanByIndex index span unitFrom).isSome = true := by
            rw [Option.isSome_iff_exists] at h
            rcases h with ⟨value, hvalue⟩
            rcases Option.bind_eq_some_iff.mp hvalue with ⟨dataTo, -, hmap⟩
            rcases Option.map_eq_some_iff.mp hmap with ⟨dataFrom, hfrom, -⟩
            rw [hfrom]
            rfl
          have hbounds := bounds_of_isSome hdata
          rcases Int.eq_ofNat_of_zero_le (Int.le_trans (Int.natCast_nonneg _) hbounds.1) with
            ⟨k, rfl⟩
          have hindex : dim.getIndexFromPos pos unitFrom = some (k : Int) := by
            rw [getIndexFromPos, helement]
            rfl
          have hsnap : (dim.getSnapPos pos unitFrom).isSome = true := by
            rw [getSnapPos, helement]
            simpa using hdata
          have hfinds := finds_of_lookup hpos hindex hsnap
          refine ⟨k, ?_, hfinds⟩
          rcases hfinds with ⟨i, run, hrun, -, hlast, -⟩ | ⟨hmissed, rfl⟩
          · exact Nat.lt_of_le_of_lt hlast (span_bounds hrun).2.1
          · by_contra hge
            rw [getSpanAndIndex_of_missed hmissed, enforceLimits,
              if_pos (searchPos_nonneg hpos unitFrom), getSpanDataByIndex,
              searchByIndex_eq_none (Nat.le_of_not_lt hge)] at helement
            cases helement

theorem convertPos_eq_some_iff (hpos : 0 ≤ pos) :
    dim.convertPos unitFrom unitTo pos = some value ↔
      ∃ k < dim.elementCount, dim.Finds unitFrom pos k ∧
        value = dim.startPos unitTo k + (pos - dim.startPos unitFrom k) := by
  constructor
  · intro h
    rcases finds_of_convertPos hpos (by rw [h]; rfl) with ⟨k, hk, hfinds⟩
    rw [convertPos_of_finds hpos hk hfinds] at h
    exact ⟨k, hk, hfinds, (Option.some.inj h).symm⟩
  · intro h
    rcases h with ⟨k, hk, hfinds, rfl⟩
    exact convertPos_of_finds hpos hk hfinds

/-! ## From print twips -/

/-- A whole position in an element keeps its offset. -/
theorem getTileTwipsPosFromPrint_eq (hk : k < dim.elementCount) {p : Int}
    (hle : dim.startPos .printtwips k ≤ p) (hlt : p < dim.startPos .printtwips (k + 1)) :
    dim.getTileTwipsPosFromPrint p none =
      some ((dim.startPos .tiletwips k + (p - dim.startPos .printtwips k) : Int) : ℚ) := by
  have hmono := dim.startPos_mono .printtwips (Nat.zero_le k)
  rw [startPos_zero] at hmono
  rw [getTileTwipsPosFromPrint, convertPos_of_finds (Int.cast_nonneg (hmono.trans hle)) hk
    (.inl (found_printtwips hk hle hlt))]
  push_cast
  rfl

theorem startPos_lt_succ (hsize : dim.sizes k ≠ 0) :
    dim.startPos .printtwips k < dim.startPos .printtwips (k + 1) := by
  rw [startPos_succ (by simp), sizeOf]
  omega

theorem sizes_eq_zero {m j : Nat} (heq : dim.startPos .printtwips k = dim.startPos .printtwips m)
    (hkj : k ≤ j) (hjm : j < m) : dim.sizes j = 0 := by
  by_contra hsize
  have hfront := dim.startPos_mono .printtwips hkj
  have hback : dim.startPos .printtwips (j + 1) ≤ dim.startPos .printtwips m :=
    dim.startPos_mono .printtwips hjm
  have hlt := startPos_lt_succ hsize
  omega

/-- Hidden elements have no tile twips either. -/
theorem startPos_tiletwips_eq {m : Nat} (hkm : k ≤ m)
    (heq : dim.startPos .printtwips k = dim.startPos .printtwips m) :
    dim.startPos .tiletwips m = dim.startPos .tiletwips k := by
  have hcore : startCorePx dim.twipsPerCorePixel dim.sizes m =
      startCorePx dim.twipsPerCorePixel dim.sizes k + 0 * ((m : Int) - k) :=
    sum_range_of_eq _ 0 hkm fun j hkj hjm => by
      rw [sizes_eq_zero heq hkj hjm]
      simp [sizeCorePxOne]
  rw [startPos, startPos, hcore, zero_mul, add_zero]

/-- At an element's start with a visible element at it or behind it. -/
theorem getTileTwipsPosFromPrint_start
    (hlt : dim.startPos .printtwips k < dim.startPos .printtwips dim.elementCount) :
    dim.getTileTwipsPosFromPrint (dim.startPos .printtwips k) none =
      some (dim.startPos .tiletwips k : ℚ) := by
  have hmono := dim.startPos_mono .printtwips (Nat.zero_le k)
  rw [startPos_zero] at hmono
  rcases exists_startPos_le (Int.cast_nonneg hmono) (Int.cast_lt.mpr hlt) with
    ⟨m, hm, hle, hnext⟩
  have hkm : k ≤ m := by
    by_contra hgt
    have hback := dim.startPos_mono .printtwips (Nat.succ_le_of_lt (Nat.lt_of_not_le hgt))
    exact absurd (Int.cast_lt.mp hnext) (not_lt.mpr hback)
  have heq : dim.startPos .printtwips k = dim.startPos .printtwips m :=
    le_antisymm (dim.startPos_mono .printtwips hkm) (Int.cast_le.mp hle)
  rw [getTileTwipsPosFromPrint_eq hm (Int.cast_le.mp hle) (Int.cast_lt.mp hnext), heq, sub_self,
    add_zero, startPos_tiletwips_eq hkm heq]

/-- Where only hidden elements follow, the last span has no part to divide. -/
theorem getTileTwipsPosFromPrint_end (hk : 0 < dim.elementCount) :
    dim.getTileTwipsPosFromPrint (dim.startPos .printtwips dim.elementCount) none = none := by
  have hmono := dim.startPos_mono .printtwips (Nat.zero_le dim.elementCount)
  rw [startPos_zero] at hmono
  rw [getTileTwipsPosFromPrint, Option.eq_none_iff_forall_ne_some]
  intro value hvalue
  rcases (convertPos_eq_some_iff (Int.cast_nonneg hmono)).mp hvalue with ⟨k, -, hfinds, -⟩
  exact not_finds_end hk k hfinds

/-! ## With a zoom -/

variable {zoomScale posPT posTT : ℚ} {spanData : SpanViewData} {spanlist : List SpanViewData}
  {start : Nat}

/-- The tile twips in front of an element, from those of the whole spans and the rounded share of its
own span. -/
def tileTwipsInFront (spanTT : SpanViewData → Int) : List SpanViewData → Nat → Int
  | [], _ => 0
  | spanData :: rest, index =>
      if index ≤ spanData.finish then
        ⌊(((index : Int) - spanData.start : Int) : ℚ) * spanTT spanData /
          ((spanData.finish : Int) - spanData.start + 1 : Int)⌋
      else spanTT spanData + tileTwipsInFront spanTT rest index

/-- Once the position is reached nothing is added. -/
theorem foldl_addSpan_done :
    spanlist.foldl (addSpan zoomScale posPT) ⟨posTT, posPT⟩ = ⟨posTT, posPT⟩ := by
  induction spanlist with
  | nil => rfl
  | cons spanData spanlist ih =>
      rw [List.foldl_cons, addSpan]
      simp only [le_refl, if_true]
      exact ih

theorem SpanAt.startPos_printtwips (h : dim.SpanAt spanData) (hstart : spanData.start ≤ k)
    (hlast : k ≤ spanData.finish + 1) :
    dim.startPos .printtwips k = dim.startPos .printtwips spanData.start +
      spanData.size * ((k : Int) - spanData.start) :=
  sum_range_of_eq _ _ hstart fun j hj hlt => by rw [h.value j hj (by omega)]

theorem sizeSpanTT_eq_zero (h : spanData.size = 0) : sizeSpanTT zoomScale spanData = 0 := by
  simp [sizeSpanTT, h]

/-- Hidden spans add nothing. -/
theorem Follow.tileTwipsInFront_eq_zero (h : dim.Follow start spanlist) (hk : start ≤ k)
    (heq : dim.startPos .printtwips start = dim.startPos .printtwips k) :
    tileTwipsInFront (sizeSpanTT zoomScale) spanlist k = 0 := by
  induction spanlist generalizing start with
  | nil => rfl
  | cons spanData rest ih =>
      rcases h with ⟨rfl, hspan, hrest⟩
      rw [tileTwipsInFront]
      rcases Nat.eq_or_lt_of_le hk with rfl | hlt
      · simp [hspan.start_le]
      · have hsize : spanData.size = 0 := by
          rw [← hspan.value _ (Nat.le_refl _) hspan.start_le]
          exact sizes_eq_zero heq (Nat.le_refl _) hlt
        rw [sizeSpanTT_eq_zero hsize]
        split
        · simp
        · have hend := hspan.startPos_printtwips (Nat.le_succ_of_le hspan.start_le) (Nat.le_refl _)
          rw [hsize, Nat.cast_zero, zero_mul, add_zero] at hend
          rw [zero_add]
          exact ih hrest (by omega) (hend.trans heq)

/-- A span in front of the position is added as a whole. -/
theorem addSpan_whole (h : dim.SpanAt spanData)
    (hlt : (dim.startPos .printtwips (spanData.finish + 1) : ℚ) < posPT) :
    addSpan zoomScale posPT ⟨posTT, dim.startPos .printtwips spanData.start⟩ spanData =
      ⟨posTT + sizeSpanTT zoomScale spanData, dim.startPos .printtwips (spanData.finish + 1)⟩ := by
  have hend := h.startPos_printtwips (Nat.le_succ_of_le h.start_le) (Nat.le_refl _)
  have hsum : (dim.startPos .printtwips (spanData.finish + 1) : ℚ) =
      dim.startPos .printtwips spanData.start +
        (spanData.size : ℚ) * ((spanData.finish : Int) - spanData.start + 1 : Int) := by
    rw [hend]
    push_cast
    ring
  have hfront : (dim.startPos .printtwips spanData.start : ℚ) < posPT :=
    lt_of_le_of_lt (Int.cast_le.mpr (dim.startPos_mono .printtwips
      (Nat.le_succ_of_le h.start_le))) hlt
  rw [addSpan]
  simp only [if_neg (not_le.mpr hfront), ← hsum, if_pos hlt]

/-- The last span is added up to the start of an element in it, or as a whole. -/
theorem addSpan_final (zoomScale posTT : ℚ) (h : dim.SpanAt spanData) (hstart : spanData.start ≤ k)
    (hlast : k ≤ spanData.finish + 1)
    (hlt : dim.startPos .printtwips spanData.start < dim.startPos .printtwips k) :
    addSpan zoomScale (dim.startPos .printtwips k)
        ⟨posTT, dim.startPos .printtwips spanData.start⟩ spanData =
      ⟨posTT + ⌊(((k : Int) - spanData.start : Int) : ℚ) * sizeSpanTT zoomScale spanData /
        ((spanData.finish : Int) - spanData.start + 1 : Int)⌋, dim.startPos .printtwips k⟩ := by
  have hk := h.startPos_printtwips hstart hlast
  have hsize : (spanData.size : ℚ) ≠ 0 := by
    intro hzero
    rw [Nat.cast_eq_zero.mp hzero, Nat.cast_zero, zero_mul, add_zero] at hk
    omega
  have hrem : (dim.startPos .printtwips k : ℚ) - dim.startPos .printtwips spanData.start =
      (((k : Int) - spanData.start : Int) : ℚ) * spanData.size := by
    rw [hk]
    push_cast
    ring
  have hin : ¬ (dim.startPos .printtwips spanData.start : ℚ) +
      (spanData.size : ℚ) * ((spanData.finish : Int) - spanData.start + 1 : Int) <
        dim.startPos .printtwips k := by
    have hend := h.startPos_printtwips (Nat.le_succ_of_le h.start_le) (Nat.le_refl _)
    have hmono : (dim.startPos .printtwips k : ℚ) ≤ dim.startPos .printtwips (spanData.finish + 1) :=
      Int.cast_le.mpr (dim.startPos_mono .printtwips hlast)
    rw [hend] at hmono
    push_cast at hmono ⊢
    linarith
  rw [addSpan]
  simp only [if_neg (not_le.mpr (Int.cast_lt.mpr hlt)), if_neg hin, hrem,
    mul_div_cancel_right₀ _ hsize, Int.floor_intCast, sub_self, add_zero]

/-- At the start of an element the spans give what is rounded in front of it. -/
theorem Follow.posTT_foldl (zoomScale posTT : ℚ) (h : dim.Follow start spanlist)
    (hk : start ≤ k) :
    (spanlist.foldl (addSpan zoomScale (dim.startPos .printtwips k))
        ⟨posTT, dim.startPos .printtwips start⟩).posTT =
      posTT + tileTwipsInFront (sizeSpanTT zoomScale) spanlist k := by
  induction spanlist generalizing start posTT with
  | nil => simp [tileTwipsInFront]
  | cons spanData rest ih =>
      have hmono := dim.startPos_mono .printtwips hk
      rcases hmono.eq_or_lt with heq | hlt
      · rw [h.tileTwipsInFront_eq_zero hk heq, heq, foldl_addSpan_done, Int.cast_zero, add_zero]
      · rcases h with ⟨rfl, hspan, hrest⟩
        rw [List.foldl_cons, tileTwipsInFront]
        by_cases hin : k ≤ spanData.finish
        · rw [addSpan_final zoomScale posTT hspan hk (Nat.le_succ_of_le hin) hlt, foldl_addSpan_done,
            if_pos hin]
        · have hnext : spanData.finish + 1 ≤ k := by omega
          rw [if_neg hin]
          rcases (dim.startPos_mono .printtwips hnext).eq_or_lt with heq | hbehind
          · -- Only hidden elements are between the span and the element.
            have hcount : (((spanData.finish : Int) - spanData.start + 1 : Int) : ℚ) ≠ 0 := by
              have hle := hspan.start_le
              exact Int.cast_ne_zero.mpr (by omega)
            have hlength : (((spanData.finish + 1 : Nat) : Int) - spanData.start : Int) =
                (spanData.finish : Int) - spanData.start + 1 := by
              push_cast
              ring
            rw [← heq] at hlt ⊢
            have hfinal := addSpan_final zoomScale posTT hspan
              (Nat.le_succ_of_le hspan.start_le) (Nat.le_refl _) hlt
            rw [hfinal, foldl_addSpan_done, hrest.tileTwipsInFront_eq_zero hnext heq, hlength,
              mul_div_cancel_left₀ _ hcount, Int.floor_intCast, add_zero]
          · rw [addSpan_whole hspan (Int.cast_lt.mpr hbehind), ih _ hrest hnext]
            push_cast
            ring

/-- The tile twips of a span, rounded for the whole span. -/
def spanTileTwips (dim : SheetDimension) (spanData : SpanViewData) : Int :=
  ⌊((spanData.data.sizecore * ((spanData.finish : Int) - spanData.start + 1) : Int) : ℚ) *
    dim.twipsPerCorePixel⌋

theorem SpanAt.sizeSpanTT_eq (h : dim.SpanAt spanData) :
    sizeSpanTT dim.coreZoomFactor spanData = dim.spanTileTwips spanData := by
  have htwips := dim.twips_pos.ne'
  have hpixels := dim.pixels_pos.ne'
  have hsize : ⌊(spanData.size : ℚ) * dim.coreZoomFactor / 15⌋ = spanData.data.sizecore := by
    rw [h.sizecore, sizeCorePxOne, coreZoomFactor, twipsPerCorePixel]
    congr 1
    field_simp
  rw [sizeSpanTT, spanTileTwips, hsize, coreZoomFactor, twipsPerCorePixel]
  congr 1
  field_simp

theorem Follow.tileTwipsInFront_eq (h : dim.Follow start spanlist) (k : Nat) :
    tileTwipsInFront (sizeSpanTT dim.coreZoomFactor) spanlist k =
      tileTwipsInFront dim.spanTileTwips spanlist k := by
  induction spanlist generalizing start with
  | nil => rfl
  | cons spanData rest ih =>
      rcases h with ⟨-, hspan, hrest⟩
      rw [tileTwipsInFront, tileTwipsInFront, hspan.sizeSpanTT_eq, ih hrest]

theorem getTileTwipsPosFromPrint_zoom (dim : SheetDimension) (k : Nat) :
    dim.getTileTwipsPosFromPrint (dim.startPos .printtwips k) (some dim.coreZoomFactor) =
      some (tileTwipsInFront dim.spanTileTwips (forEachSpan dim.visibleSizes) k : ℚ) := by
  have hfold := dim.follow_forEachSpan.posTT_foldl dim.coreZoomFactor 0 (Nat.zero_le k)
  rw [startPos_zero, Int.cast_zero, zero_add, dim.follow_forEachSpan.tileTwipsInFront_eq] at hfold
  rw [getTileTwipsPosFromPrint, hfold]

/-! ## Both directions -/

/-- The two kinds of twips correspond. Element starts go to each other, whole positions come back,
and the current zoom changes nothing. -/
structure TwipsCorrespond (dim : SheetDimension) : Prop where
  toTile : ∀ k tt pt, dim.getElementDataAny k .tiletwips = some tt →
    dim.getElementDataAny k .printtwips = some pt → 0 < pt.size →
      dim.getTileTwipsPosFromPrint pt.startpos none = some (tt.startpos : ℚ)
  toPrint : ∀ k tt pt, dim.getElementDataAny k .tiletwips = some tt →
    dim.getElementDataAny k .printtwips = some pt → 0 < pt.size →
      dim.getPrintTwipsPosFromTile tt.startpos = some (pt.startpos : ℚ)
  roundTrip : ∀ k tt pt, dim.getElementDataAny k .tiletwips = some tt →
    dim.getElementDataAny k .printtwips = some pt → ∀ p : Int, pt.startpos ≤ p →
      p < pt.startpos + pt.size → p - pt.startpos < tt.size →
        (dim.getTileTwipsPosFromPrint p none).bind dim.getPrintTwipsPosFromTile = some (p : ℚ)
  zoomed : ∀ k pt, dim.getElementDataAny k .printtwips = some pt →
    dim.getTileTwipsPosFromPrint pt.startpos (some dim.coreZoomFactor) =
      dim.getTileTwipsPosFromPrint pt.startpos none

/-- The search in tile twips comes to an element whose starts are as far apart as those of the
element that it is for. -/
def TileFinds (dim : SheetDimension) (k : Nat) (offset : Int) : Prop :=
  ∃ found < dim.elementCount,
    dim.Finds .tiletwips ((dim.startPos .tiletwips k + offset : Int) : ℚ) found ∧
      dim.startPos .printtwips found - dim.startPos .tiletwips found =
        dim.startPos .printtwips k - dim.startPos .tiletwips k

theorem getPrintTwipsPosFromTile_iff {offset : Int} (hoffset : 0 ≤ offset) :
    dim.getPrintTwipsPosFromTile ((dim.startPos .tiletwips k + offset : Int) : ℚ) =
        some ((dim.startPos .printtwips k + offset : Int) : ℚ) ↔ dim.TileFinds k offset := by
  have hmono := dim.startPos_mono .tiletwips (Nat.zero_le k)
  rw [startPos_zero] at hmono
  rw [getPrintTwipsPosFromTile, convertPos_eq_some_iff (Int.cast_nonneg (add_nonneg hmono hoffset))]
  have hvalue : ∀ found, ((dim.startPos .printtwips k + offset : Int) : ℚ) =
      dim.startPos .printtwips found +
        (((dim.startPos .tiletwips k + offset : Int) : ℚ) - dim.startPos .tiletwips found) ↔
      dim.startPos .printtwips found - dim.startPos .tiletwips found =
        dim.startPos .printtwips k - dim.startPos .tiletwips k := by
    intro found
    norm_cast
    omega
  simp only [hvalue, TileFinds]

theorem lt_of_getElementDataAny {unitName : GeometryUnit} {data : DimensionPosSize}
    (h : dim.getElementDataAny k unitName = some data) :
    k < dim.elementCount ∧ data = ⟨dim.startPos unitName k, dim.sizeOf unitName k⟩ := by
  by_cases hk : k < dim.elementCount
  · rw [getElementDataAny_eq unitName hk] at h
    exact ⟨hk, (Option.some.inj h).symm⟩
  · rw [getElementDataAny_eq_none unitName (Nat.le_of_not_lt hk)] at h
    cases h

/-- The columns of a new spreadsheet at 2667 twips for a tile of 256 pixels. -/
def zoomedColumns : SheetDimension :=
  ((new 2667 256 (by norm_num) pixels_pos_256).updateVisible [⟨1023, 1280⟩]
    ascending_newColumns).setMaxIndex 1023

end SheetDimension

end SheetGeometry

end CoolOnline
