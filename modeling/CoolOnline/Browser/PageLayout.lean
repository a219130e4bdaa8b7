import Mathlib.Algebra.Order.Field.Rat
import Mathlib.Algebra.Order.BigOperators.Group.List
import Mathlib.Tactic.Linarith

/-! # The multi-page layout

`ViewLayoutMultiPage.resetViewLayout` of `browser/src/app/ViewLayoutMultiPage.ts`, with exact numbers:
the pages are placed in rows on the view.
-/

namespace CoolOnline.ViewLayout

/-! ## Points and rectangles -/

/-- The units of the coordinates. -/
structure Units where
  twipsToPixels : ℚ
  positive : 0 < twipsToPixels

def Units.pixelsToTwips (u : Units) : ℚ := u.twipsToPixels⁻¹

/-- A point in twips. -/
structure SimplePoint where
  x : ℚ
  y : ℚ
deriving DecidableEq

namespace SimplePoint

variable (u : Units) (p : SimplePoint)

def pX : ℚ := p.x * u.twipsToPixels

def pY : ℚ := p.y * u.twipsToPixels

def fromCorePixels (x y : ℚ) : SimplePoint := ⟨x * u.pixelsToTwips, y * u.pixelsToTwips⟩

end SimplePoint

/-- A rectangle in twips. -/
structure SimpleRectangle where
  x1 : ℚ
  y1 : ℚ
  width : ℚ
  height : ℚ
deriving DecidableEq

namespace SimpleRectangle

variable (u : Units) (r : SimpleRectangle)

def x2 : ℚ := r.x1 + r.width

def y2 : ℚ := r.y1 + r.height

def pX1 : ℚ := r.x1 * u.twipsToPixels

def pY1 : ℚ := r.y1 * u.twipsToPixels

def pWidth : ℚ := r.width * u.twipsToPixels

def pHeight : ℚ := r.height * u.twipsToPixels

def pX2 : ℚ := r.pX1 u + r.pWidth u

def pY2 : ℚ := r.pY1 u + r.pHeight u

def containsPoint (p : SimplePoint) : Bool :=
  decide (p.x ≥ r.x1 ∧ p.x ≤ r.x2 ∧ p.y ≥ r.y1 ∧ p.y ≤ r.y2)

/-- The rectangle moved to a place in pixels. -/
def movedTo (x y : ℚ) : SimpleRectangle :=
  ⟨x * u.pixelsToTwips, y * u.pixelsToTwips, r.width, r.height⟩

end SimpleRectangle

/-! ## Rows -/

/-- Core pixels. -/
def gapBetweenPages : ℚ := 20

def maxRowsSize : ℕ := 2

/-- The pages taken for a row, with the width they need with and without gaps. -/
structure Row where
  count : ℕ
  x : ℚ
  totalWidth : ℚ

section

variable (u : Units) (canvasWidth : ℚ)

/-- The loop that takes pages for a row. -/
def takeRow : Row → List SimpleRectangle → Row
  | row, [] => row
  | row, r :: rest =>
      if row.count < maxRowsSize then
        let addition := r.pWidth u + gapBetweenPages
        if row.x + addition < canvasWidth ∨ row.count = 0 then
          let next : Row := ⟨row.count + 1, row.x + addition, row.totalWidth + r.pWidth u⟩
          if row.x + addition > canvasWidth then next else takeRow next rest
        else row
      else row

/-- The loop that places the pages of a row. -/
def placeRow (lastY : ℚ) : ℚ → List SimpleRectangle → List SimpleRectangle
  | _, [] => []
  | currentX, r :: rest =>
      r.movedTo u currentX lastY :: placeRow lastY (currentX + (r.pWidth u + gapBetweenPages)) rest

def maxHeight : List SimpleRectangle → ℚ
  | [] => 0
  | r :: rest => max (r.pHeight u) (maxHeight rest)

end

/-- The view rectangles, the top of the next row and the width of the view. -/
structure Placement where
  viewRectangles : List SimpleRectangle
  lastY : ℚ
  viewWidth : ℚ

theorem count_le_takeRow (u : Units) (canvasWidth : ℚ) (row : Row) (rs : List SimpleRectangle) :
    row.count ≤ (takeRow u canvasWidth row rs).count := by
  induction rs generalizing row with
  | nil => exact Nat.le_refl _
  | cons r rest ih =>
      rw [takeRow]
      dsimp only
      split_ifs
      case pos => exact Nat.le_succ _
      case neg => exact Nat.le_trans (Nat.le_succ row.count) (ih ⟨row.count + 1, _, _⟩)
      case neg => exact Nat.le_refl _
      case neg => exact Nat.le_refl _

/-- The first page is always taken. -/
theorem takeRow_pos (u : Units) (canvasWidth : ℚ) (r : SimpleRectangle)
    (rest : List SimpleRectangle) : 0 < (takeRow u canvasWidth ⟨0, 0, 0⟩ (r :: rest)).count := by
  rw [takeRow, if_pos (by decide)]
  dsimp only
  rw [if_pos (.inr rfl)]
  split_ifs
  case pos => exact Nat.zero_lt_one
  case neg => exact count_le_takeRow u canvasWidth ⟨1, _, _⟩ rest

section

variable (u : Units) (canvasWidth : ℚ)

/-- The loop over the rows. -/
def placeRows (lastY viewWidth : ℚ) : List SimpleRectangle → Placement
  | [] => ⟨[], lastY, viewWidth⟩
  | r :: rest =>
      let row := takeRow u canvasWidth ⟨0, 0, 0⟩ (r :: rest)
      have hpos : 0 < row.count := takeRow_pos u canvasWidth r rest
      if row.x < canvasWidth then
        let pages := (r :: rest).take row.count
        let gap := ((row.count : ℚ) - 1) * gapBetweenPages
        let margin := (canvasWidth - (row.totalWidth + gap)) * (1 / 2)
        let others := placeRows (lastY + (maxHeight u pages + gapBetweenPages)) viewWidth
          ((r :: rest).drop row.count)
        { others with viewRectangles := placeRow u lastY margin pages ++ others.viewRectangles }
      else
        let viewWidth := if row.x > viewWidth then row.x + gapBetweenPages * 2 else viewWidth
        let others := placeRows (lastY + (r.pHeight u + gapBetweenPages)) viewWidth
          ((r :: rest).drop row.count)
        -- only the first page of the row is placed
        let unplaced := (rest.take (row.count - 1)).map fun r => ⟨0, 0, r.width, r.height⟩
        { others with
          viewRectangles := r.movedTo u gapBetweenPages lastY :: unplaced ++ others.viewRectangles }
termination_by rs => rs.length

end

structure MultiPage where
  documentRectangles : List SimpleRectangle
  viewRectangles : List SimpleRectangle
  viewSize : SimplePoint

def MultiPage.resetViewLayout (u : Units) (layout : MultiPage)
    (pageRectangleList : List SimpleRectangle) (canvasSize : ℚ × ℚ) : MultiPage :=
  if pageRectangleList = [] then { layout with documentRectangles := [], viewRectangles := [] }
  else
    let placement := placeRows u canvasSize.1 gapBetweenPages canvasSize.1 pageRectangleList
    { documentRectangles := pageRectangleList
      viewRectangles := placement.viewRectangles
      viewSize := .fromCorePixels u placement.viewWidth (max placement.lastY canvasSize.2) }

/-! ## What a layout is to be -/

/-- A page comes before another one: in a row above, or on the left of it in the same row. -/
def Before (u : Units) (a b : SimpleRectangle) : Prop :=
  a.pY2 u + gapBetweenPages ≤ b.pY1 u ∨
    a.pY1 u = b.pY1 u ∧ a.pX2 u + gapBetweenPages ≤ b.pX1 u

/-- Every page has a view rectangle of its size; these come one after another, with the gap between
them, inside the view. -/
structure PlacesPages (u : Units) (layout : MultiPage) : Prop where
  sizes : List.Forall₂ (fun page view => view.width = page.width ∧ view.height = page.height)
    layout.documentRectangles layout.viewRectangles
  order : layout.viewRectangles.Pairwise (Before u)
  inside (view : SimpleRectangle) (h : view ∈ layout.viewRectangles) :
    0 ≤ view.pX1 u ∧ 0 ≤ view.pY1 u ∧ view.pX2 u ≤ layout.viewSize.pX u ∧
      view.pY2 u ≤ layout.viewSize.pY u

/-- The sizes of pages are positive. -/
def PositiveSizes (pages : List SimpleRectangle) : Prop :=
  ∀ page ∈ pages, 0 < page.width ∧ 0 < page.height

/-- A part of the rows is filled, from the one top to the other. -/
structure Filled (u : Units) (pages : List SimpleRectangle) (lastY viewWidth : ℚ) (p : Placement) :
    Prop where
  sizes : List.Forall₂ (fun page view => view.width = page.width ∧ view.height = page.height)
    pages p.viewRectangles
  order : p.viewRectangles.Pairwise (Before u)
  horizontal (view : SimpleRectangle) (h : view ∈ p.viewRectangles) :
    0 ≤ view.pX1 u ∧ view.pX2 u ≤ p.viewWidth
  vertical (view : SimpleRectangle) (h : view ∈ p.viewRectangles) :
    lastY ≤ view.pY1 u ∧ view.pY2 u + gapBetweenPages ≤ p.lastY
  down : lastY ≤ p.lastY
  wider : viewWidth ≤ p.viewWidth

section

variable {u : Units} {canvasWidth lastY viewWidth : ℚ}

theorem Filled.append {first rest : List SimpleRectangle} {p q : Placement}
    (hfirst : Filled u first lastY viewWidth p) (hrest : Filled u rest p.lastY p.viewWidth q) :
    Filled u (first ++ rest) lastY viewWidth
      { q with viewRectangles := p.viewRectangles ++ q.viewRectangles } := by
  constructor
  case sizes => exact List.rel_append hfirst.sizes hrest.sizes
  case order =>
    refine List.pairwise_append.mpr ⟨hfirst.order, hrest.order, fun a ha b hb => .inl ?_⟩
    exact (hfirst.vertical a ha).2.trans (hrest.vertical b hb).1
  case horizontal =>
    intro view hview
    cases List.mem_append.mp hview with
    | inl hview =>
        obtain ⟨hleft, hright⟩ := hfirst.horizontal view hview
        exact ⟨hleft, hright.trans hrest.wider⟩
    | inr hview => exact hrest.horizontal view hview
  case vertical =>
    intro view hview
    cases List.mem_append.mp hview with
    | inl hview =>
        obtain ⟨htop, hbottom⟩ := hfirst.vertical view hview
        exact ⟨htop, hbottom.trans hrest.down⟩
    | inr hview =>
        obtain ⟨htop, hbottom⟩ := hrest.vertical view hview
        exact ⟨hfirst.down.trans htop, hbottom⟩
  case down => exact hfirst.down.trans hrest.down
  case wider => exact hfirst.wider.trans hrest.wider

/-! ## One row -/

theorem gap_pos : 0 < gapBetweenPages := by norm_num [gapBetweenPages]

theorem pixels_twips (u : Units) (x : ℚ) : x * u.pixelsToTwips * u.twipsToPixels = x := by
  rw [Units.pixelsToTwips, inv_mul_cancel_right₀ u.positive.ne']

@[simp] theorem pX1_movedTo (r : SimpleRectangle) (x y : ℚ) : (r.movedTo u x y).pX1 u = x :=
  pixels_twips u x

@[simp] theorem pY1_movedTo (r : SimpleRectangle) (x y : ℚ) : (r.movedTo u x y).pY1 u = y :=
  pixels_twips u y

@[simp] theorem pX2_movedTo (r : SimpleRectangle) (x y : ℚ) :
    (r.movedTo u x y).pX2 u = x + r.pWidth u := by
  rw [SimpleRectangle.pX2, pX1_movedTo]
  rfl

@[simp] theorem pY2_movedTo (r : SimpleRectangle) (x y : ℚ) :
    (r.movedTo u x y).pY2 u = y + r.pHeight u := by
  rw [SimpleRectangle.pY2, pY1_movedTo]
  rfl

/-- The width of pages, each with a gap. -/
def rowWidth (u : Units) (pages : List SimpleRectangle) : ℚ :=
  (pages.map fun r => r.pWidth u + gapBetweenPages).sum

theorem pWidth_pos {r : SimpleRectangle} (h : 0 < r.width) : 0 < r.pWidth u :=
  mul_pos h u.positive

theorem rowWidth_nonneg {pages : List SimpleRectangle} (h : PositiveSizes pages) :
    0 ≤ rowWidth u pages := by
  refine List.sum_nonneg fun x hx => ?_
  obtain ⟨r, hr, rfl⟩ := List.mem_map.mp hx
  exact (add_pos (pWidth_pos (h r hr).1) gap_pos).le

/-- The pages of a row stand next to each other. -/
theorem placeRow_mem {pages : List SimpleRectangle} (h : PositiveSizes pages) {currentX : ℚ}
    {view : SimpleRectangle} (hview : view ∈ placeRow u lastY currentX pages) :
    currentX ≤ view.pX1 u ∧ view.pX2 u + gapBetweenPages ≤ currentX + rowWidth u pages ∧
      view.pY1 u = lastY ∧ view.pY2 u ≤ lastY + maxHeight u pages := by
  induction pages generalizing currentX with
  | nil => exact absurd hview List.not_mem_nil
  | cons r rest ih =>
      have hrest : PositiveSizes rest := fun page hpage => h page (List.mem_cons_of_mem r hpage)
      have hwidth := rowWidth_nonneg (u := u) hrest
      have hr := pWidth_pos (u := u) (h r List.mem_cons_self).1
      have hgap := gap_pos
      rw [rowWidth, List.map_cons, List.sum_cons, ← rowWidth, maxHeight]
      cases List.mem_cons.mp hview with
      | inl heq =>
          rw [heq, pX1_movedTo, pX2_movedTo, pY1_movedTo, pY2_movedTo]
          refine ⟨le_rfl, by linarith, rfl, ?_⟩
          exact add_le_add_right (le_max_left _ _) _
      | inr hmem =>
          obtain ⟨hleft, hright, htop, hbottom⟩ := ih hrest hmem
          refine ⟨by linarith, by linarith, htop, hbottom.trans ?_⟩
          exact add_le_add_right (le_max_right _ _) _

theorem placeRow_order {pages : List SimpleRectangle} (h : PositiveSizes pages) (currentX : ℚ) :
    (placeRow u lastY currentX pages).Pairwise (Before u) := by
  induction pages generalizing currentX with
  | nil => exact List.Pairwise.nil
  | cons r rest ih =>
      have hrest : PositiveSizes rest := fun page hpage => h page (List.mem_cons_of_mem r hpage)
      refine List.pairwise_cons.mpr ⟨fun view hview => .inr ?_, ih hrest _⟩
      obtain ⟨hleft, -, htop, -⟩ := placeRow_mem hrest hview
      rw [pY1_movedTo, pX2_movedTo]
      exact ⟨htop.symm, by linarith⟩

theorem placeRow_sizes (pages : List SimpleRectangle) (currentX : ℚ) :
    List.Forall₂ (fun page view : SimpleRectangle =>
        view.width = page.width ∧ view.height = page.height)
      pages (placeRow u lastY currentX pages) := by
  induction pages generalizing currentX with
  | nil => exact List.Forall₂.nil
  | cons r rest ih => exact List.Forall₂.cons ⟨rfl, rfl⟩ (ih _)

theorem placeRow_filled {pages : List SimpleRectangle} (h : PositiveSizes pages) {currentX width : ℚ}
    (hleft : 0 ≤ currentX) (hright : currentX + rowWidth u pages - gapBetweenPages ≤ width)
    (hwidth : viewWidth ≤ width) (hheight : 0 ≤ maxHeight u pages) :
    Filled u pages lastY viewWidth
      ⟨placeRow u lastY currentX pages, lastY + (maxHeight u pages + gapBetweenPages), width⟩ := by
  have hgap := gap_pos
  constructor
  case sizes => exact placeRow_sizes pages currentX
  case order => exact placeRow_order h currentX
  case horizontal =>
    intro view hview
    obtain ⟨hx1, hx2, -, -⟩ := placeRow_mem h hview
    exact ⟨hleft.trans hx1, by simp only; linarith⟩
  case vertical =>
    intro view hview
    obtain ⟨-, -, hy1, hy2⟩ := placeRow_mem h hview
    exact ⟨hy1.ge, by simp only; linarith⟩
  case down => simp only; linarith
  case wider => exact hwidth

/-! ## All rows -/

/-- The widths of pages. -/
def pageWidths (u : Units) (pages : List SimpleRectangle) : ℚ :=
  (pages.map fun r => r.pWidth u).sum

theorem rowWidth_eq (u : Units) (pages : List SimpleRectangle) :
    rowWidth u pages = pageWidths u pages + pages.length * gapBetweenPages := by
  rw [rowWidth, pageWidths, List.sum_map_add, List.map_const', List.sum_replicate, nsmul_eq_mul]

/-- A row with more pages. -/
def Row.add (u : Units) (row : Row) (taken : List SimpleRectangle) : Row :=
  ⟨row.count + taken.length, row.x + rowWidth u taken, row.totalWidth + pageWidths u taken⟩

theorem Row.add_nil (row : Row) : row.add u [] = row := by
  simp [Row.add, rowWidth, pageWidths]

theorem Row.add_cons (row : Row) (r : SimpleRectangle) (taken : List SimpleRectangle) :
    row.add u (r :: taken) =
      Row.add u ⟨row.count + 1, row.x + (r.pWidth u + gapBetweenPages),
        row.totalWidth + r.pWidth u⟩ taken := by
  simp [Row.add, rowWidth, pageWidths, add_assoc, add_comm 1]

/-- Pages from the front are taken, after the first one only where there is room. -/
def Takes (u : Units) (canvasWidth : ℚ) (row : Row) (rs : List SimpleRectangle) (result : Row) :
    Prop :=
  ∃ taken, taken <+: rs ∧ result = row.add u taken ∧
    (0 < row.count → taken = [] ∨ result.x < canvasWidth)

theorem takes_none (row : Row) (rs : List SimpleRectangle) : Takes u canvasWidth row rs row :=
  ⟨[], List.nil_prefix, (Row.add_nil row).symm, fun _ => .inl rfl⟩

theorem takes_takeRow (canvasWidth : ℚ) (row : Row) (rs : List SimpleRectangle) :
    Takes u canvasWidth row rs (takeRow u canvasWidth row rs) := by
  induction rs generalizing row with
  | nil => exact takes_none row []
  | cons r rest ih =>
      rw [takeRow]
      dsimp only
      split_ifs with hcount hroom hover
      case pos =>
        refine ⟨[r], List.prefix_append [r] rest, ?_, fun hpos => ?_⟩
        · rw [Row.add_cons, Row.add_nil]
        · have hfits := hroom.resolve_right hpos.ne'
          exact absurd hover (not_lt.mpr hfits.le)
      case neg =>
        obtain ⟨taken, hfront, htake, hfits⟩ := ih ⟨row.count + 1, _, _⟩
        refine ⟨r :: taken, (List.prefix_cons_inj r).mpr hfront, ?_, fun hpos => .inr ?_⟩
        · rw [htake, Row.add_cons]
        · cases hfits (Nat.succ_pos _) with
          | inl hnil =>
              rw [htake, hnil, Row.add_nil]
              exact hroom.resolve_right hpos.ne'
          | inr hlt => exact hlt
      case neg => exact takes_none row (r :: rest)
      case neg => exact takes_none row (r :: rest)

/-- The first page is taken, and where the row does not fit it is the only one. -/
theorem takeRow_cons (canvasWidth : ℚ) (r : SimpleRectangle) (rest : List SimpleRectangle) :
    ∃ taken, taken <+: rest ∧
      takeRow u canvasWidth ⟨0, 0, 0⟩ (r :: rest) =
        ⟨taken.length + 1, rowWidth u (r :: taken), pageWidths u (r :: taken)⟩ ∧
      (taken = [] ∨ rowWidth u (r :: taken) < canvasWidth) := by
  have hadd (taken : List SimpleRectangle) :
      Row.add u ⟨0, 0, 0⟩ (r :: taken) =
        ⟨taken.length + 1, rowWidth u (r :: taken), pageWidths u (r :: taken)⟩ := by
    simp [Row.add]
  rw [takeRow, if_pos (by decide)]
  dsimp only
  rw [if_pos (.inr rfl)]
  split_ifs with hover
  case pos =>
    refine ⟨[], List.nil_prefix, ?_, .inl rfl⟩
    rw [← hadd [], Row.add_cons, Row.add_nil]
  case neg =>
    obtain ⟨taken, hfront, htake, hfits⟩ := takes_takeRow (u := u) canvasWidth
      ⟨0 + 1, 0 + (r.pWidth u + gapBetweenPages), 0 + r.pWidth u⟩ rest
    rw [htake, ← Row.add_cons ⟨0, 0, 0⟩ r taken, hadd] at hfits ⊢
    exact ⟨taken, hfront, rfl, hfits Nat.one_pos⟩

theorem maxHeight_nonneg (u : Units) (pages : List SimpleRectangle) : 0 ≤ maxHeight u pages := by
  induction pages with
  | nil => exact le_rfl
  | cons r rest ih => exact le_max_of_le_right ih

theorem placeRows_filled {pages : List SimpleRectangle} (h : PositiveSizes pages)
    (hwidth : canvasWidth ≤ viewWidth) :
    Filled u pages lastY viewWidth (placeRows u canvasWidth lastY viewWidth pages) := by
  induction hlength : pages.length using Nat.strong_induction_on
    generalizing pages lastY viewWidth with
  | _ n ih =>
      cases pages with
      | nil =>
          rw [placeRows.eq_def]
          exact ⟨List.Forall₂.nil, List.Pairwise.nil, fun _ hview => absurd hview List.not_mem_nil,
            fun _ hview => absurd hview List.not_mem_nil, le_rfl, le_rfl⟩
      | cons r rest =>
          obtain ⟨taken, ⟨others, rfl⟩, htake, hfits⟩ :=
            takeRow_cons (u := u) canvasWidth r rest
          have hothers : PositiveSizes others := fun page hpage =>
            h page (List.mem_cons_of_mem r (List.mem_append_right taken hpage))
          have hrow : PositiveSizes (r :: taken) := fun page hpage =>
            h page (List.mem_append_left others hpage)
          have hgap := gap_pos
          have hx := rowWidth_eq u (r :: taken)
          rw [List.length_cons, Nat.cast_add, Nat.cast_one] at hx
          have hdrop : (r :: (taken ++ others)).drop (taken.length + 1) = others := by simp
          have hpages : (r :: (taken ++ others)).take (taken.length + 1) = r :: taken := by simp
          have hshort : others.length < n := by
            rw [← hlength, List.length_cons, List.length_append]
            omega
          rw [placeRows.eq_def]
          simp only [htake, hdrop, hpages]
          split
          case isTrue hroom =>
            have hmargin : 0 ≤ (canvasWidth - (pageWidths u (r :: taken) +
                (((taken.length + 1 : ℕ) : ℚ) - 1) * gapBetweenPages)) * (1 / 2) := by
              push_cast
              linarith
            have hright : (canvasWidth - (pageWidths u (r :: taken) +
                (((taken.length + 1 : ℕ) : ℚ) - 1) * gapBetweenPages)) * (1 / 2) +
                  rowWidth u (r :: taken) - gapBetweenPages ≤ viewWidth := by
              push_cast
              linarith
            exact (placeRow_filled hrow hmargin hright le_rfl (maxHeight_nonneg u _)).append
              (ih _ hshort hothers hwidth rfl)
          case isFalse hover =>
            -- the page is the only one of its row
            cases hfits.resolve_right hover
            have hone : maxHeight u [r] = r.pHeight u :=
              max_eq_left (mul_pos (h r List.mem_cons_self).2 u.positive).le
            have hright : gapBetweenPages + rowWidth u [r] - gapBetweenPages ≤
                if rowWidth u [r] > viewWidth then rowWidth u [r] + gapBetweenPages * 2
                else viewWidth := by
              split_ifs <;> linarith
            have hwider : viewWidth ≤
                if rowWidth u [r] > viewWidth then rowWidth u [r] + gapBetweenPages * 2
                else viewWidth := by
              split_ifs <;> linarith
            have hfilled : Filled u [r] lastY viewWidth ⟨placeRow u lastY gapBetweenPages [r],
                lastY + (maxHeight u [r] + gapBetweenPages), _⟩ :=
              placeRow_filled hrow hgap.le hright hwider (maxHeight_nonneg u [r])
            rw [hone] at hfilled
            exact hfilled.append (ih _ hshort hothers (hwidth.trans hwider) rfl)

end

/-- The layout places the pages, whatever the canvas is. -/
theorem placesPages_resetViewLayout {u : Units} {pages : List SimpleRectangle}
    (h : PositiveSizes pages) (layout : MultiPage) (canvasSize : ℚ × ℚ) :
    PlacesPages u (layout.resetViewLayout u pages canvasSize) := by
  rw [MultiPage.resetViewLayout]
  split
  case isTrue =>
    exact ⟨List.Forall₂.nil, List.Pairwise.nil, fun _ hview => absurd hview List.not_mem_nil⟩
  case isFalse =>
    have hfilled : Filled u pages gapBetweenPages canvasSize.1
        (placeRows u canvasSize.1 gapBetweenPages canvasSize.1 pages) :=
      placeRows_filled h le_rfl
    have hgap := gap_pos
    refine ⟨hfilled.sizes, hfilled.order, fun view hview => ?_⟩
    obtain ⟨hleft, hright⟩ := hfilled.horizontal view hview
    obtain ⟨htop, hbottom⟩ := hfilled.vertical view hview
    refine ⟨hleft, by linarith, ?_, ?_⟩
    · exact hright.trans (pixels_twips u _).ge
    · have hlast := le_max_left
        (placeRows u canvasSize.1 gapBetweenPages canvasSize.1 pages).lastY canvasSize.2
      exact (show view.pY2 u ≤ _ by linarith).trans (hlast.trans (pixels_twips u _).ge)

end CoolOnline.ViewLayout
