import CoolOnline.Browser.PageLayout
import Mathlib.Data.Finset.Max
import Mathlib.Tactic.Ring

/-! # Points on the multi-page layout

`getClosestRectangleIndex`, `documentToViewX`, `documentToViewY` and `canvasToDocumentPoint` of
`browser/src/app/ViewLayoutMultiPage.ts`.
-/

namespace CoolOnline.ViewLayout

/-- The square of the distance of a point to a rectangle that it is outside of. -/
def distanceSquare (point : SimplePoint) (r : SimpleRectangle) : ℚ :=
  if point.x ≥ r.x1 ∧ point.x ≤ r.x2 then min ((point.y - r.y2) ^ 2) ((point.y - r.y1) ^ 2)
  else if point.y ≥ r.y1 ∧ point.y ≤ r.y2 then
    min ((point.x - r.x2) ^ 2) ((point.x - r.x1) ^ 2)
  else
    let corner (x y : ℚ) := (point.x - x) ^ 2 + (point.y - y) ^ 2
    min (min (corner r.x1 r.y1) (corner r.x2 r.y1)) (min (corner r.x1 r.y2) (corner r.x2 r.y2))

/-- The loop that looks for the closest rectangle, from the index `i` on. -/
def closestLoop (point : SimplePoint) :
    Option (ℚ × ℕ) → ℕ → List SimpleRectangle → Option (ℚ × ℕ)
  | closest, _, [] => closest
  | closest, i, r :: rest =>
      let current := distanceSquare point r
      if closest.all (current < ·.1) then closestLoop point (some (current, i)) (i + 1) rest
      else closestLoop point closest (i + 1) rest

/-- The first rectangle that contains the point, or else the closest one. -/
def closestIndex (rectangles : List SimpleRectangle) (point : SimplePoint) : Option ℕ :=
  match rectangles.findIdx? (·.containsPoint point) with
  | some i => some i
  | none => (closestLoop point none 0 rectangles).map (·.2)

namespace MultiPage

variable (u : Units) (layout : MultiPage)

def getClosestRectangleIndex (point : SimplePoint) (documentPoint : Bool) : Option ℕ :=
  closestIndex (if documentPoint then layout.documentRectangles else layout.viewRectangles) point

/-- The rectangles of an index, of the document and of the view. -/
def rectangles (index : ℕ) : Option (SimpleRectangle × SimpleRectangle) :=
  (layout.documentRectangles[index]?).bind fun documentRectangle =>
    (layout.viewRectangles[index]?).map fun viewRectangle => (documentRectangle, viewRectangle)

section

variable (scroll anchor : ℚ × ℚ)

def documentToViewX (point : SimplePoint) : Option ℚ :=
  (layout.getClosestRectangleIndex point true).bind fun index =>
    (layout.rectangles index).map fun (documentRectangle, viewRectangle) =>
      viewRectangle.pX1 u + (point.pX u - documentRectangle.pX1 u) - scroll.1 + anchor.1

def documentToViewY (point : SimplePoint) : Option ℚ :=
  (layout.getClosestRectangleIndex point true).bind fun index =>
    (layout.rectangles index).map fun (documentRectangle, viewRectangle) =>
      viewRectangle.pY1 u + (point.pY u - documentRectangle.pY1 u) - scroll.2 + anchor.2

/-- The document point, and what the argument is afterwards. -/
def canvasToDocumentPoint (point : SimplePoint) : Option (SimplePoint × SimplePoint) :=
  let point := SimplePoint.fromCorePixels u (point.pX u + scroll.1) (point.pY u + scroll.2)
  (layout.getClosestRectangleIndex point false).bind fun index =>
    (layout.rectangles index).map fun (documentRectangle, viewRectangle) =>
      (.fromCorePixels u (documentRectangle.pX1 u + (point.pX u - viewRectangle.pX1 u))
        (documentRectangle.pY1 u + (point.pY u - viewRectangle.pY1 u)), point)

/-- Points inside pages are given back from where they are on the canvas, and the canvas points are
left as they are. -/
def GivesBack : Prop :=
  ∀ point, (∃ page ∈ layout.documentRectangles, page.containsPoint point = true) →
    ∃ x y, layout.documentToViewX u scroll anchor point = some x ∧
      layout.documentToViewY u scroll anchor point = some y ∧
      layout.canvasToDocumentPoint u scroll (.fromCorePixels u x y) =
        some (point, .fromCorePixels u x y)

end

end MultiPage

/-- Each page has a point that is on no page in front of it. -/
def NoneCovered (pages : List SimpleRectangle) : Prop :=
  ∀ (i : ℕ) (page : SimpleRectangle), pages[i]? = some page →
    ∃ point, page.containsPoint point = true ∧
      ∀ (j : ℕ) (other : SimpleRectangle), j < i → pages[j]? = some other →
        other.containsPoint point = false

section

variable {u : Units} {point : SimplePoint} {rectangles : List SimpleRectangle} {i : ℕ}

/-! ## Points in pixels -/

theorem fromCorePixels_pX (x y : ℚ) : (SimplePoint.fromCorePixels u x y).pX u = x :=
  pixels_twips u x

theorem fromCorePixels_pY (x y : ℚ) : (SimplePoint.fromCorePixels u x y).pY u = y :=
  pixels_twips u y

theorem fromCorePixels_inj {x y x' y' : ℚ} :
    SimplePoint.fromCorePixels u x y = .fromCorePixels u x' y' ↔ x = x' ∧ y = y' := by
  constructor
  · intro h
    have hx := congrArg (SimplePoint.pX u) h
    have hy := congrArg (SimplePoint.pY u) h
    rw [fromCorePixels_pX, fromCorePixels_pX] at hx
    rw [fromCorePixels_pY, fromCorePixels_pY] at hy
    exact ⟨hx, hy⟩
  · intro h
    rw [h.1, h.2]

theorem eq_fromCorePixels (u : Units) (point : SimplePoint) :
    point = .fromCorePixels u (point.pX u) (point.pY u) := by
  rw [SimplePoint.fromCorePixels, SimplePoint.pX, SimplePoint.pY, Units.pixelsToTwips,
    mul_inv_cancel_right₀ u.positive.ne', mul_inv_cancel_right₀ u.positive.ne']

theorem containsPoint_iff (u : Units) (r : SimpleRectangle) (point : SimplePoint) :
    r.containsPoint point = true ↔ r.pX1 u ≤ point.pX u ∧ point.pX u ≤ r.pX2 u ∧
      r.pY1 u ≤ point.pY u ∧ point.pY u ≤ r.pY2 u := by
  have hscale (a b : ℚ) : a * u.twipsToPixels ≤ b * u.twipsToPixels ↔ a ≤ b :=
    mul_le_mul_iff_of_pos_right u.positive
  rw [SimpleRectangle.containsPoint, decide_eq_true_eq, SimpleRectangle.pX2, SimpleRectangle.pY2,
    SimpleRectangle.pX1, SimpleRectangle.pY1, SimpleRectangle.pWidth, SimpleRectangle.pHeight,
    ← add_mul, ← add_mul, SimplePoint.pX, SimplePoint.pY, hscale, hscale, hscale, hscale]
  exact Iff.rfl

/-! ## The closest rectangle -/

theorem closestIndex_of_contains {r : SimpleRectangle} (hi : rectangles[i]? = some r)
    (hcontains : r.containsPoint point = true)
    (hfront : ∀ (j : ℕ) (other : SimpleRectangle), j < i → rectangles[j]? = some other →
      other.containsPoint point = false) : closestIndex rectangles point = some i := by
  obtain ⟨hlt, hr⟩ := List.getElem?_eq_some_iff.mp hi
  have hfind : rectangles.findIdx? (·.containsPoint point) = some i := by
    rw [List.findIdx?_eq_some_iff_getElem]
    refine ⟨hlt, by rw [hr, hcontains], fun j hj => ?_⟩
    rw [hfront j _ hj (List.getElem?_eq_getElem (hj.trans hlt))]
    exact Bool.false_ne_true
  rw [closestIndex, hfind]

/-- The first page that contains a point. -/
theorem exists_closestIndex_of_contains
    (h : ∃ r ∈ rectangles, r.containsPoint point = true) :
    ∃ i r, closestIndex rectangles point = some i ∧ rectangles[i]? = some r ∧
      r.containsPoint point = true := by
  obtain ⟨r, hr, hcontains⟩ := h
  cases hfind : rectangles.findIdx? (·.containsPoint point) with
  | none =>
      have hnot := List.findIdx?_eq_none_iff.mp hfind r hr
      rw [hcontains] at hnot
      cases hnot
  | some i =>
      obtain ⟨hlt, hi, -⟩ := List.findIdx?_eq_some_iff_getElem.mp hfind
      exact ⟨i, rectangles[i], by rw [closestIndex, hfind], List.getElem?_eq_getElem hlt, hi⟩

theorem closestLoop_some (point : SimplePoint) (closest : ℚ × ℕ) (i : ℕ)
    (rest : List SimpleRectangle) (hclosest : closest.2 < i) :
    ∃ result, closestLoop point (some closest) i rest = some result ∧
      result.2 < i + rest.length := by
  induction rest generalizing closest i with
  | nil => exact ⟨closest, rfl, hclosest⟩
  | cons r rest ih =>
      rw [closestLoop, List.length_cons]
      split
      case isTrue =>
        obtain ⟨result, hloop, hlt⟩ := ih (distanceSquare point r, i) (i + 1) (Nat.lt_succ_self i)
        exact ⟨result, hloop, by omega⟩
      case isFalse =>
        obtain ⟨result, hloop, hlt⟩ := ih closest (i + 1) (by omega)
        exact ⟨result, hloop, by omega⟩

/-- Some rectangle is always the closest one. -/
theorem exists_closestIndex (point : SimplePoint) (h : rectangles ≠ []) :
    ∃ i, closestIndex rectangles point = some i ∧ i < rectangles.length := by
  cases hfind : rectangles.findIdx? (·.containsPoint point) with
  | some i =>
      exact ⟨i, by rw [closestIndex, hfind], (List.findIdx?_eq_some_iff_getElem.mp hfind).1⟩
  | none =>
      cases rectangles with
      | nil => exact absurd rfl h
      | cons r rest =>
          obtain ⟨result, hloop, hlt⟩ :=
            closestLoop_some point (distanceSquare point r, 0) 1 rest Nat.zero_lt_one
          refine ⟨result.2, ?_, by rw [List.length_cons]; omega⟩
          rw [closestIndex, hfind]
          exact congrArg (Option.map (·.2)) hloop

/-- The rectangles of a layout do not contain the points of others. -/
theorem not_contains_of_before {a b : SimpleRectangle} (h : Before u a b)
    (hcontains : b.containsPoint point = true) : a.containsPoint point = false := by
  rw [containsPoint_iff u] at hcontains
  rw [← Bool.not_eq_true, containsPoint_iff u]
  have hgap := gap_pos
  intro hother
  cases h with
  | inl habove => linarith
  | inr hleft => linarith

end

/-! ## There and back -/

namespace MultiPage

section

variable {u : Units} {layout : MultiPage} {point : SimplePoint} {i j : ℕ}
  {page view : SimpleRectangle}

theorem rectangles_eq (hpage : layout.documentRectangles[i]? = some page)
    (hview : layout.viewRectangles[i]? = some view) : layout.rectangles i = some (page, view) := by
  rw [rectangles, hpage, hview]
  rfl

/-- A point of a page on the canvas, and the page it is looked for on. -/
theorem canvasToDocumentPoint_eq (scroll anchor : ℚ × ℚ) {page' view' : SimpleRectangle}
    (hrectangles : layout.rectangles j = some (page', view'))
    (hclosest : closestIndex layout.viewRectangles (.fromCorePixels u
      (view.pX1 u + (point.pX u - page.pX1 u) + anchor.1)
      (view.pY1 u + (point.pY u - page.pY1 u) + anchor.2)) = some j) :
    layout.canvasToDocumentPoint u scroll (.fromCorePixels u
        (view.pX1 u + (point.pX u - page.pX1 u) - scroll.1 + anchor.1)
        (view.pY1 u + (point.pY u - page.pY1 u) - scroll.2 + anchor.2)) =
      some (.fromCorePixels u
          (page'.pX1 u + (view.pX1 u + (point.pX u - page.pX1 u) + anchor.1 - view'.pX1 u))
          (page'.pY1 u + (view.pY1 u + (point.pY u - page.pY1 u) + anchor.2 - view'.pY1 u)),
        .fromCorePixels u (view.pX1 u + (point.pX u - page.pX1 u) + anchor.1)
          (view.pY1 u + (point.pY u - page.pY1 u) + anchor.2)) := by
  have hx : view.pX1 u + (point.pX u - page.pX1 u) - scroll.1 + anchor.1 + scroll.1 =
      view.pX1 u + (point.pX u - page.pX1 u) + anchor.1 := by ring
  have hy : view.pY1 u + (point.pY u - page.pY1 u) - scroll.2 + anchor.2 + scroll.2 =
      view.pY1 u + (point.pY u - page.pY1 u) + anchor.2 := by ring
  rw [canvasToDocumentPoint]
  simp only [fromCorePixels_pX, fromCorePixels_pY, hx, hy, getClosestRectangleIndex,
    Bool.false_eq_true, if_false, hclosest, Option.bind_some, hrectangles, Option.map_some]

theorem documentToViewX_eq (scroll anchor : ℚ × ℚ)
    (hclosest : closestIndex layout.documentRectangles point = some i)
    (hrectangles : layout.rectangles i = some (page, view)) :
    layout.documentToViewX u scroll anchor point =
      some (view.pX1 u + (point.pX u - page.pX1 u) - scroll.1 + anchor.1) := by
  simp only [documentToViewX, getClosestRectangleIndex, if_true, hclosest, Option.bind_some,
    hrectangles, Option.map_some]

theorem documentToViewY_eq (scroll anchor : ℚ × ℚ)
    (hclosest : closestIndex layout.documentRectangles point = some i)
    (hrectangles : layout.rectangles i = some (page, view)) :
    layout.documentToViewY u scroll anchor point =
      some (view.pY1 u + (point.pY u - page.pY1 u) - scroll.2 + anchor.2) := by
  simp only [documentToViewY, getClosestRectangleIndex, if_true, hclosest, Option.bind_some,
    hrectangles, Option.map_some]

theorem exists_view (h : PlacesPages u layout) (hpage : layout.documentRectangles[i]? = some page) :
    ∃ view, layout.viewRectangles[i]? = some view ∧ view.width = page.width ∧
      view.height = page.height := by
  obtain ⟨hlt, hget⟩ := List.getElem?_eq_some_iff.mp hpage
  have hlt' : i < layout.viewRectangles.length := h.sizes.length_eq ▸ hlt
  have hsize := h.sizes.get hlt hlt'
  simp only [List.get_eq_getElem, hget] at hsize
  exact ⟨_, List.getElem?_eq_getElem hlt', hsize⟩

/-- Where a point of a page is placed, its page is found. -/
theorem closestIndex_placed (h : PlacesPages u layout)
    (hview : layout.viewRectangles[i]? = some view)
    (hsize : view.width = page.width ∧ view.height = page.height)
    (hcontains : page.containsPoint point = true) :
    closestIndex layout.viewRectangles (.fromCorePixels u
      (view.pX1 u + (point.pX u - page.pX1 u)) (view.pY1 u + (point.pY u - page.pY1 u))) =
        some i := by
  have hplaced : view.containsPoint (.fromCorePixels u
      (view.pX1 u + (point.pX u - page.pX1 u)) (view.pY1 u + (point.pY u - page.pY1 u))) = true := by
    rw [containsPoint_iff u] at hcontains ⊢
    rw [fromCorePixels_pX, fromCorePixels_pY]
    have hwidth : view.pX2 u = view.pX1 u + (page.pX2 u - page.pX1 u) := by
      rw [SimpleRectangle.pX2, SimpleRectangle.pX2, SimpleRectangle.pWidth, hsize.1,
        add_sub_cancel_left]
      rfl
    have hheight : view.pY2 u = view.pY1 u + (page.pY2 u - page.pY1 u) := by
      rw [SimpleRectangle.pY2, SimpleRectangle.pY2, SimpleRectangle.pHeight, hsize.2,
        add_sub_cancel_left]
      rfl
    obtain ⟨hx1, hx2, hy1, hy2⟩ := hcontains
    rw [hwidth, hheight]
    exact ⟨by linarith, by linarith, by linarith, by linarith⟩
  refine closestIndex_of_contains hview hplaced fun j other hj hother => ?_
  obtain ⟨hlt, hget⟩ := List.getElem?_eq_some_iff.mp hview
  obtain ⟨hlt', hget'⟩ := List.getElem?_eq_some_iff.mp hother
  have hbefore := List.pairwise_iff_getElem.mp h.order j i hlt' hlt hj
  rw [hget, hget'] at hbefore
  exact not_contains_of_before hbefore hplaced

theorem givesBack_unscrolled (h : PlacesPages u layout) : layout.GivesBack u (0, 0) (0, 0) := by
  intro point hinside
  obtain ⟨i, page, hclosest, hpage, hcontains⟩ := exists_closestIndex_of_contains hinside
  obtain ⟨view, hview, hsize⟩ := exists_view h hpage
  have hrectangles := rectangles_eq hpage hview
  have hplaced := closestIndex_placed h hview hsize hcontains
  refine ⟨_, _, documentToViewX_eq _ _ hclosest hrectangles,
    documentToViewY_eq _ _ hclosest hrectangles, ?_⟩
  rw [canvasToDocumentPoint_eq (0, 0) (0, 0) hrectangles (by simpa using hplaced)]
  rw [Option.some.injEq, Prod.mk.injEq, fromCorePixels_inj]
  refine ⟨?_, by ring, by ring⟩
  conv_rhs => rw [eq_fromCorePixels u point]
  rw [fromCorePixels_inj]
  exact ⟨by ring, by ring⟩

/-! ## Where points are not given back -/

/-- How far a page is from its place on the view. -/
def displacement (u : Units) (layout : MultiPage) (i : ℕ) : ℚ × ℚ :=
  match layout.rectangles i with
  | some (page, view) => (page.pX1 u - view.pX1 u, page.pY1 u - view.pY1 u)
  | none => (0, 0)

/-- A point that is given back was looked for on a page displaced by as much as the anchor. -/
theorem displacement_of_givesBack {scroll anchor : ℚ × ℚ} (h : PlacesPages u layout)
    (hback : layout.GivesBack u scroll anchor)
    (hpage : layout.documentRectangles[i]? = some page) (hcontains : page.containsPoint point = true)
    (hfront : ∀ (j : ℕ) (other : SimpleRectangle), j < i →
      layout.documentRectangles[j]? = some other → other.containsPoint point = false) :
    scroll = (0, 0) ∧ ∃ j < layout.documentRectangles.length,
      displacement u layout j = displacement u layout i - anchor := by
  obtain ⟨view, hview, -⟩ := exists_view h hpage
  have hrectangles := rectangles_eq hpage hview
  have hclosest := closestIndex_of_contains hpage hcontains hfront
  have hviews : layout.viewRectangles ≠ [] := by
    intro hnil
    rw [hnil] at hview
    cases hview
  obtain ⟨j, hj, hlt⟩ := exists_closestIndex (.fromCorePixels u
      (view.pX1 u + (point.pX u - page.pX1 u) + anchor.1)
      (view.pY1 u + (point.pY u - page.pY1 u) + anchor.2)) hviews
  rw [← h.sizes.length_eq] at hlt
  have hpage' := List.getElem?_eq_getElem hlt
  obtain ⟨view', hview', -⟩ := exists_view h hpage'
  have hrectangles' := rectangles_eq hpage' hview'
  obtain ⟨x, y, hx, hy, hpoint⟩ := hback point ⟨page, List.mem_of_getElem? hpage, hcontains⟩
  rw [documentToViewX_eq _ _ hclosest hrectangles] at hx
  rw [documentToViewY_eq _ _ hclosest hrectangles] at hy
  cases hx
  cases hy
  rw [canvasToDocumentPoint_eq scroll anchor hrectangles' hj, Option.some.injEq, Prod.mk.injEq,
    fromCorePixels_inj] at hpoint
  obtain ⟨hgiven, hargX, hargY⟩ := hpoint
  rw [eq_fromCorePixels u point, fromCorePixels_inj, fromCorePixels_pX, fromCorePixels_pY] at hgiven
  obtain ⟨hgivenX, hgivenY⟩ := hgiven
  refine ⟨Prod.ext (by simp only; linarith) (by simp only; linarith), j, hlt, ?_⟩
  rw [displacement, displacement, hrectangles, hrectangles']
  exact Prod.ext (by simp only [Prod.fst_sub]; linarith) (by simp only [Prod.snd_sub]; linarith)

/-- Points of all pages are only given back when nothing is scrolled and the anchor is zero. -/
theorem unscrolled_of_givesBack {scroll anchor : ℚ × ℚ} (h : PlacesPages u layout)
    (hcovered : NoneCovered layout.documentRectangles) (hback : layout.GivesBack u scroll anchor)
    (hpages : layout.documentRectangles ≠ []) : scroll = (0, 0) ∧ anchor = (0, 0) := by
  -- the page that is displaced least in the direction of the anchor
  obtain ⟨i, hi, hleast⟩ := Finset.exists_min_image
    (Finset.range layout.documentRectangles.length)
    (fun i => (displacement u layout i).1 * anchor.1 + (displacement u layout i).2 * anchor.2)
    ⟨0, Finset.mem_range.mpr (List.length_pos_iff.mpr hpages)⟩
  have hpage := List.getElem?_eq_getElem (Finset.mem_range.mp hi)
  obtain ⟨point, hcontains, hfront⟩ := hcovered i _ hpage
  obtain ⟨hscroll, j, hj, hdisplaced⟩ := displacement_of_givesBack h hback hpage hcontains hfront
  have hle := hleast j (Finset.mem_range.mpr hj)
  rw [hdisplaced, Prod.fst_sub, Prod.snd_sub] at hle
  have hsquares : anchor.1 * anchor.1 + anchor.2 * anchor.2 ≤ 0 := by linarith
  have hzero := mul_self_add_mul_self_eq_zero.mp
    (le_antisymm hsquares (add_nonneg (mul_self_nonneg anchor.1) (mul_self_nonneg anchor.2)))
  exact ⟨hscroll, Prod.ext hzero.1 hzero.2⟩

end

end MultiPage

/-- The pages are placed and the points of pages are given back. -/
structure ValidPlacement (u : Units) (layout : MultiPage) (scroll anchor : ℚ × ℚ) : Prop where
  places : PlacesPages u layout
  givesBack : layout.GivesBack u scroll anchor

section

variable {u : Units} {pages : List SimpleRectangle}

theorem documentRectangles_resetViewLayout (layout : MultiPage) (canvasSize : ℚ × ℚ) :
    (layout.resetViewLayout u pages canvasSize).documentRectangles = pages := by
  rw [MultiPage.resetViewLayout]
  split
  case isTrue hnil => exact hnil.symm
  case isFalse => rfl

theorem unscrolled_of_validPlacement {layout : MultiPage} {canvasSize scroll anchor : ℚ × ℚ}
    (hcovered : NoneCovered pages)
    (h : ValidPlacement u (layout.resetViewLayout u pages canvasSize) scroll anchor) :
    pages = [] ∨ scroll = (0, 0) ∧ anchor = (0, 0) := by
  by_cases hnil : pages = []
  · exact .inl hnil
  · refine .inr (MultiPage.unscrolled_of_givesBack h.places ?_ h.givesBack ?_)
    · rwa [documentRectangles_resetViewLayout]
    · rwa [documentRectangles_resetViewLayout]

end

/-- Fifteen twips a pixel. -/
def fifteenTwips : Units := ⟨1 / 15, by norm_num⟩

/-- A page of 100 pixels. -/
def onePage : List SimpleRectangle := [⟨0, 0, 1500, 1500⟩]

def emptyLayout : MultiPage := ⟨[], [], ⟨0, 0⟩⟩

/-- The layout of the page on a canvas. -/
def onePageLayout : MultiPage := emptyLayout.resetViewLayout fifteenTwips onePage (1000, 800)

theorem positiveSizes_onePage : PositiveSizes onePage := by
  intro page hpage
  cases List.mem_singleton.mp hpage
  norm_num

theorem noneCovered_onePage : NoneCovered onePage := by
  intro i page hpage
  cases i with
  | zero =>
      cases hpage
      exact ⟨⟨0, 0⟩, by decide +kernel, fun j other hj => absurd hj (Nat.not_lt_zero j)⟩
  | succ i => cases hpage

end CoolOnline.ViewLayout
