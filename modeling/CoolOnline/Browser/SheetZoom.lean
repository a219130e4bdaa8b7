import CoolOnline.Browser.SheetDimension

/-! # Positions at another zoom

`getCorePixelsAtZoom` and `getCorePixelsFromZoom` of `browser/src/layer/tile/SheetGeometry.ts`. Both
go over all spans and convert as many whole elements of each as the rest of the position has.
Positions are exact numbers.
-/

namespace CoolOnline

open Finset Run

namespace SheetGeometry

open SpanList

/-- What has been converted of a position, and what has not. -/
structure Converted where
  converted : Int
  remaining : ℚ

namespace SheetDimension

def sizeOneCPZ (zoomScale : ℚ) (span : SpanViewData) : Int := ⌊(span.size : ℚ) / 15 * zoomScale⌋

/-- The callback, from sizes of one kind to those of another. -/
def convertSpan (sizeFrom sizeTo : SpanViewData → Int) (result : Converted) (span : SpanViewData) :
    Converted :=
  let elementCount := (span.finish : Int) - span.start + 1
  -- Done, but the callback cannot end the loop.
  if result.remaining < sizeFrom span then result
  else if ((sizeFrom span * elementCount : Int) : ℚ) ≤ result.remaining then
    ⟨result.converted + sizeTo span * elementCount,
      result.remaining - (sizeFrom span * elementCount : Int)⟩
  else
    let elems := ⌊result.remaining / sizeFrom span⌋
    ⟨result.converted + elems * sizeTo span, result.remaining - (elems * sizeFrom span : Int)⟩

def getCorePixelsAtZoom (dim : SheetDimension) (zoomScale posCP : ℚ) : ℚ :=
  let result := (forEachSpan dim.visibleSizes).foldl
    (convertSpan (·.data.sizecore) (sizeOneCPZ zoomScale)) ⟨0, posCP⟩
  result.converted + result.remaining * zoomScale / dim.coreZoomFactor

def getCorePixelsFromZoom (dim : SheetDimension) (zoomScale posCPZ : ℚ) : ℚ :=
  let result := (forEachSpan dim.visibleSizes).foldl
    (convertSpan (sizeOneCPZ zoomScale) (·.data.sizecore)) ⟨0, posCPZ⟩
  result.converted + result.remaining * dim.coreZoomFactor / zoomScale

/-- A position inside an element goes to one inside the element, and its start to its start. -/
def StaysInside (convert : ℚ → ℚ) (here there : DimensionPosSize) : Prop :=
  ∀ p : ℚ, here.startpos ≤ p → p < here.startpos + here.size →
    there.startpos ≤ convert p ∧ convert p ≤ there.startpos + there.size ∧
      (p = here.startpos → convert p = there.startpos)

/-- Positions keep to their elements and to their order, to the other zoom and back from it. -/
structure KeepsElements (dim : SheetDimension) (zoomScale : ℚ) : Prop where
  inside : ∀ index here there, dim.getElementData index none = some here →
    dim.getElementData index (some zoomScale) = some there →
      StaysInside (dim.getCorePixelsAtZoom zoomScale) here there ∧
        StaysInside (dim.getCorePixelsFromZoom zoomScale) there here
  monotone_at : Monotone (dim.getCorePixelsAtZoom zoomScale)
  monotone_from : Monotone (dim.getCorePixelsFromZoom zoomScale)

/-! ## A span at a time -/

variable {dim : SheetDimension} {sizeFrom sizeTo : SpanViewData → Int} {posFrom posTo : Nat → Int}
  {span : SpanViewData} {front back : List SpanViewData} {start k : Nat} {p ratio : ℚ}

/-- The positions of the elements whose sizes are these. -/
structure Measures (dim : SheetDimension) (size : SpanViewData → Int) (pos : Nat → Int) : Prop where
  pos_zero : pos 0 = 0
  nonneg : ∀ {span}, dim.SpanAt span → 0 ≤ size span
  pos_eq : ∀ {span k}, dim.SpanAt span → span.start ≤ k → k ≤ span.finish + 1 →
    pos k = pos span.start + size span * ((k : Int) - span.start)

theorem measures_sizecore (dim : SheetDimension) :
    dim.Measures (·.data.sizecore) (dim.startPos .corepixels) where
  pos_zero := startPos_zero _
  nonneg h := h.sizecore ▸ dim.sizeCorePxOne_nonneg _
  pos_eq h := h.startPos_eq

/-- Where an element begins at a zoom. -/
def startAtZoom (dim : SheetDimension) (zoomScale : ℚ) (index : Nat) : Int :=
  ∑ k ∈ range index, dim.sizeAtZoom zoomScale k

theorem SpanAt.sizeAtZoom_eq (h : dim.SpanAt span) {zoomScale : ℚ} (hstart : span.start ≤ k)
    (hlast : k ≤ span.finish) : dim.sizeAtZoom zoomScale k = sizeOneCPZ zoomScale span := by
  rw [sizeAtZoom, h.value k hstart hlast, sizeOneCPZ]
  congr 1
  ring

theorem measures_sizeOneCPZ (dim : SheetDimension) {zoomScale : ℚ} (hzoom : 0 < zoomScale) :
    dim.Measures (sizeOneCPZ zoomScale) (dim.startAtZoom zoomScale) where
  pos_zero := rfl
  nonneg _ := Int.floor_nonneg.mpr
    (mul_nonneg (div_nonneg (Nat.cast_nonneg _) (by norm_num)) hzoom.le)
  pos_eq h hstart hlast := sum_range_of_eq _ _ hstart fun _ hj hlt =>
    h.sizeAtZoom_eq hj (by omega)

theorem Measures.pos_finish (hm : dim.Measures sizeFrom posFrom) (h : dim.SpanAt span) :
    posFrom (span.finish + 1) =
      posFrom span.start + sizeFrom span * ((span.finish : Int) - span.start + 1) := by
  rw [hm.pos_eq h (Nat.le_succ_of_le h.start_le) (Nat.le_refl _)]
  push_cast
  ring

/-- A span in front of the position is converted as a whole. -/
theorem convertSpan_whole (hfrom : dim.Measures sizeFrom posFrom) (hto : dim.Measures sizeTo posTo)
    (h : dim.SpanAt span) (hp : (posFrom (span.finish + 1) : ℚ) ≤ p) :
    convertSpan sizeFrom sizeTo ⟨posTo span.start, p - posFrom span.start⟩ span =
      ⟨posTo (span.finish + 1), p - posFrom (span.finish + 1)⟩ := by
  have hcount : 1 ≤ (span.finish : Int) - span.start + 1 := by
    have hle := h.start_le
    omega
  have hone : sizeFrom span ≤ sizeFrom span * ((span.finish : Int) - span.start + 1) :=
    le_mul_of_one_le_right (hfrom.nonneg h) hcount
  have hcast : (sizeFrom span : ℚ) ≤
      ((sizeFrom span * ((span.finish : Int) - span.start + 1) : Int) : ℚ) := Int.cast_le.mpr hone
  rw [hfrom.pos_finish h, Int.cast_add] at hp
  rw [convertSpan, hfrom.pos_finish h, hto.pos_finish h]
  simp only
  rw [if_neg (by linarith), if_pos (by linarith), Int.cast_add, sub_sub]

/-- A span whose sizes are in the ratio keeps the converted position with its rest in the ratio. -/
theorem convertSpan_exact (h : (sizeTo span : ℚ) = sizeFrom span * ratio) (result : Converted) :
    ((convertSpan sizeFrom sizeTo result span).converted : ℚ) +
        (convertSpan sizeFrom sizeTo result span).remaining * ratio =
      result.converted + result.remaining * ratio := by
  rw [convertSpan]
  simp only
  split
  · rfl
  · split
    · push_cast
      rw [h]
      ring
    · push_cast
      rw [h]
      ring

theorem foldl_convertSpan_exact (h : ∀ span ∈ back, (sizeTo span : ℚ) = sizeFrom span * ratio)
    (result : Converted) :
    ((back.foldl (convertSpan sizeFrom sizeTo) result).converted : ℚ) +
        (back.foldl (convertSpan sizeFrom sizeTo) result).remaining * ratio =
      result.converted + result.remaining * ratio := by
  induction back generalizing result with
  | nil => rfl
  | cons span back ih =>
      rw [List.foldl_cons, ih fun next hnext => h next (List.mem_cons_of_mem _ hnext)]
      exact convertSpan_exact (h span List.mem_cons_self) result

theorem Measures.start_le_of_follow (hm : dim.Measures sizeFrom posFrom)
    (hfollow : dim.Follow start (front ++ span :: back)) : posFrom start ≤ posFrom span.start := by
  induction front generalizing start with
  | nil =>
      rw [hfollow.1]
  | cons first front ih =>
      rcases hfollow with ⟨rfl, hfirst, hrest⟩
      have hsize := mul_nonneg (hm.nonneg hfirst)
        (show 0 ≤ (first.finish : Int) - first.start + 1 by
          have hle := hfirst.start_le
          omega)
      have hnext := ih hrest
      rw [hm.pos_finish hfirst] at hnext
      omega

/-- All spans in front of that of the position are converted. -/
theorem foldl_convertSpan_front (hfrom : dim.Measures sizeFrom posFrom)
    (hto : dim.Measures sizeTo posTo) (hfollow : dim.Follow start (front ++ span :: back))
    (hp : (posFrom span.start : ℚ) ≤ p) :
    front.foldl (convertSpan sizeFrom sizeTo) ⟨posTo start, p - posFrom start⟩ =
      ⟨posTo span.start, p - posFrom span.start⟩ := by
  induction front generalizing start with
  | nil =>
      rw [hfollow.1]
      rfl
  | cons first front ih =>
      rcases hfollow with ⟨rfl, hfirst, hrest⟩
      have hmono := hfrom.start_le_of_follow hrest
      rw [List.foldl_cons, convertSpan_whole hfrom hto hfirst ((Int.cast_le.mpr hmono).trans hp)]
      exact ih hrest

/-! ## A position inside an element -/

/-- When the spans behind that of the position are in the ratio, the rest of the position inside its
element is converted in the ratio. -/
theorem foldl_convertSpan_inside (hfrom : dim.Measures sizeFrom posFrom)
    (hto : dim.Measures sizeTo posTo) (hspans : forEachSpan dim.visibleSizes = front ++ span :: back)
    (hback : ∀ next ∈ back, (sizeTo next : ℚ) = sizeFrom next * ratio)
    (hp : (posFrom span.start : ℚ) ≤ p) (hlt : p < posFrom span.start + sizeFrom span) :
    (((forEachSpan dim.visibleSizes).foldl (convertSpan sizeFrom sizeTo) ⟨0, p⟩).converted : ℚ) +
        ((forEachSpan dim.visibleSizes).foldl (convertSpan sizeFrom sizeTo) ⟨0, p⟩).remaining *
          ratio = posTo span.start + (p - posFrom span.start) * ratio := by
  have hfollow := dim.follow_forEachSpan
  rw [hspans] at hfollow ⊢
  have hfront := foldl_convertSpan_front hfrom hto hfollow hp
  rw [hfrom.pos_zero, hto.pos_zero, Int.cast_zero, sub_zero] at hfront
  rw [List.foldl_append, hfront, List.foldl_cons, convertSpan, if_pos (by linarith)]
  exact foldl_convertSpan_exact hback _

/-- A ratio that keeps all of an interval in another is at most that of their lengths. -/
theorem mul_le_of_forall_lt {a b : ℚ} (hratio : 0 < ratio) (hb : 0 ≤ b)
    (h : ∀ r, 0 ≤ r → r < a → r * ratio ≤ b) : a * ratio ≤ b := by
  by_contra hgt
  have hlt : b / ratio < a := (div_lt_iff₀ hratio).mpr (not_le.mp hgt)
  have hmid := h ((b / ratio + a) / 2) (by
    have hnonneg := div_nonneg hb hratio.le
    linarith) (by linarith)
  have hscaled : b < (b / ratio + a) / 2 * ratio := by
    rw [← div_lt_iff₀ hratio]
    linarith
  linarith

variable {zoomScale : ℚ}

theorem coreZoomFactor_pos (dim : SheetDimension) : 0 < dim.coreZoomFactor :=
  div_pos (mul_pos dim.pixels_pos (by norm_num)) dim.twips_pos

theorem getElementData_none (hk : k < dim.elementCount) :
    dim.getElementData k none = some ⟨dim.startPos .corepixels k, dim.sizeOf .corepixels k⟩ :=
  getElementDataAny_eq .corepixels hk

/-- The size of an element is in the ratio of the zooms. -/
def Scales (dim : SheetDimension) (zoomScale : ℚ) (k : Nat) : Prop :=
  (dim.sizeAtZoom zoomScale k : ℚ) * dim.coreZoomFactor = dim.sizeOf .corepixels k * zoomScale

/-- The last span whose sizes are not in the ratio lets positions out of its elements. -/
theorem KeepsElements.scales_of_suffix (h : dim.KeepsElements zoomScale) (hzoom : 0 < zoomScale)
    (front : List SpanViewData) (hspans : forEachSpan dim.visibleSizes = front ++ back) :
    ∀ span ∈ back, (sizeOneCPZ zoomScale span : ℚ) =
      span.data.sizecore * (zoomScale / dim.coreZoomFactor) := by
  have hfactor := dim.coreZoomFactor_pos
  induction back generalizing front with
  | nil =>
      intro span hmem
      cases hmem
  | cons span back ih =>
      have hback := ih (front ++ [span]) (by rw [hspans, List.append_assoc]; rfl)
      have hspan : dim.SpanAt span := spanAt_of_mem (by rw [hspans]; simp)
      have hstart : span.start < dim.elementCount :=
        Nat.lt_of_le_of_lt hspan.start_le hspan.finish_lt
      have hinside := h.inside span.start _ _ (getElementData_none hstart)
        (getElementData_zoom zoomScale hstart)
      have hsize := hspan.sizeOf_eq (Nat.le_refl _) hspan.start_le
      have hsizeZ : dim.sizeAtZoom zoomScale span.start = sizeOneCPZ zoomScale span :=
        hspan.sizeAtZoom_eq (Nat.le_refl _) hspan.start_le
      have hcore := (dim.measures_sizecore).nonneg hspan
      have hzoomed := (dim.measures_sizeOneCPZ hzoom).nonneg hspan
      simp only [StaysInside, hsize, hsizeZ] at hinside
      have hat : (span.data.sizecore : ℚ) * (zoomScale / dim.coreZoomFactor) ≤
          sizeOneCPZ zoomScale span := by
        refine mul_le_of_forall_lt (div_pos hzoom hfactor) (Int.cast_nonneg hzoomed) fun r hr hlt => ?_
        have hin := (hinside.1 (dim.startPos .corepixels span.start + r) (by linarith)
          (by linarith)).2.1
        rw [getCorePixelsAtZoom, mul_div_assoc, foldl_convertSpan_inside dim.measures_sizecore
          (dim.measures_sizeOneCPZ hzoom) hspans hback (by linarith) (by linarith)] at hin
        rw [startAtZoom] at hin
        linarith
      have hfrom : (sizeOneCPZ zoomScale span : ℚ) * (dim.coreZoomFactor / zoomScale) ≤
          span.data.sizecore := by
        refine mul_le_of_forall_lt (div_pos hfactor hzoom) (Int.cast_nonneg hcore) fun r hr hlt => ?_
        have hin := (hinside.2 (dim.startAtZoom zoomScale span.start + r) (by
          rw [startAtZoom]
          linarith) (by
          rw [startAtZoom]
          linarith)).2.1
        have hinverse : ∀ next ∈ back, (next.data.sizecore : ℚ) =
            sizeOneCPZ zoomScale next * (dim.coreZoomFactor / zoomScale) := fun next hnext => by
          rw [hback next hnext]
          field_simp
        rw [getCorePixelsFromZoom, mul_div_assoc, foldl_convertSpan_inside
          (dim.measures_sizeOneCPZ hzoom) dim.measures_sizecore hspans hinverse (by linarith)
          (by linarith)] at hin
        linarith
      have hge : (sizeOneCPZ zoomScale span : ℚ) ≤
          span.data.sizecore * (zoomScale / dim.coreZoomFactor) := by
        rw [← div_le_iff₀ (div_pos hzoom hfactor), ← mul_one_div, one_div_div]
        exact hfrom
      intro next hnext
      rcases List.mem_cons.mp hnext with rfl | hnext
      · exact le_antisymm hge hat
      · exact hback next hnext

theorem scales_iff (hzoom : 0 < zoomScale) : (∀ k < dim.elementCount, dim.Scales zoomScale k) ↔
    ∀ span ∈ forEachSpan dim.visibleSizes, (sizeOneCPZ zoomScale span : ℚ) =
      span.data.sizecore * (zoomScale / dim.coreZoomFactor) := by
  have hfactor := dim.coreZoomFactor_pos
  constructor
  · intro h span hmem
    have hspan := spanAt_of_mem hmem
    have hscales := h span.start (Nat.lt_of_le_of_lt hspan.start_le hspan.finish_lt)
    rw [Scales, hspan.sizeAtZoom_eq (Nat.le_refl _) hspan.start_le,
      hspan.sizeOf_eq (Nat.le_refl _) hspan.start_le] at hscales
    field_simp
    exact hscales
  · intro h k hk
    have hmem : k ∈ (forEachSpan dim.visibleSizes).flatMap elementsOf := by
      rw [flatMap_elementsOf]
      exact List.mem_range.mpr hk
    rcases List.mem_flatMap.mp hmem with ⟨span, hspan, hin⟩
    rw [mem_elementsOf] at hin
    have hat := spanAt_of_mem hspan
    rw [Scales, hat.sizeAtZoom_eq hin.1 hin.2, hat.sizeOf_eq hin.1 hin.2, h span hspan]
    field_simp

/-- When all sizes are in the ratio, so are all positions. -/
theorem getCorePixelsAtZoom_eq (hzoom : 0 < zoomScale)
    (h : ∀ k < dim.elementCount, dim.Scales zoomScale k) (posCP : ℚ) :
    dim.getCorePixelsAtZoom zoomScale posCP = posCP * (zoomScale / dim.coreZoomFactor) := by
  rw [getCorePixelsAtZoom, mul_div_assoc, foldl_convertSpan_exact ((scales_iff hzoom).mp h)]
  simp

theorem getCorePixelsFromZoom_eq (hzoom : 0 < zoomScale)
    (h : ∀ k < dim.elementCount, dim.Scales zoomScale k) (posCPZ : ℚ) :
    dim.getCorePixelsFromZoom zoomScale posCPZ = posCPZ * (dim.coreZoomFactor / zoomScale) := by
  have hfactor := dim.coreZoomFactor_pos
  rw [getCorePixelsFromZoom, mul_div_assoc, foldl_convertSpan_exact fun span hmem => by
    rw [(scales_iff hzoom).mp h span hmem]
    field_simp]
  simp

theorem startAtZoom_eq (h : ∀ k < dim.elementCount, dim.Scales zoomScale k)
    (hk : k ≤ dim.elementCount) :
    (dim.startAtZoom zoomScale k : ℚ) * dim.coreZoomFactor =
      dim.startPos .corepixels k * zoomScale := by
  induction k with
  | zero => simp [startAtZoom]
  | succ k ih =>
      rw [startAtZoom, sum_range_succ, ← startAtZoom, startPos_succ (by simp)]
      push_cast
      rw [add_mul, add_mul, ih (Nat.le_of_succ_le hk)]
      exact congrArg _ (h k hk)

theorem staysInside_of_ratio {convert : ℚ → ℚ} {here there : DimensionPosSize} (hratio : 0 < ratio)
    (hconvert : ∀ p, convert p = p * ratio) (hpos : (there.startpos : ℚ) = here.startpos * ratio)
    (hsize : (there.size : ℚ) = here.size * ratio) : StaysInside convert here there := by
  intro p hle hlt
  have hstart := mul_le_mul_of_nonneg_right hle hratio.le
  have hend := mul_lt_mul_of_pos_right hlt hratio
  rw [add_mul] at hend
  rw [hconvert, hpos, hsize]
  exact ⟨hstart, hend.le, fun heq => by rw [heq]⟩

/-- Three columns of 100 pixels at the zoom with 15 twips for a pixel. -/
def threeColumns : SheetDimension :=
  (new 3840 256 twips_pos_3840 pixels_pos_256).updateVisible [⟨2, 1500⟩] (by simp)

/-- A column of 10 pixels in front of nine columns of 1 pixel and 14 twips. -/
def tenColumns : SheetDimension :=
  (new 3840 256 twips_pos_3840 pixels_pos_256).updateVisible [⟨0, 150⟩, ⟨9, 29⟩] (by simp)

end SheetDimension

end SheetGeometry

end CoolOnline
