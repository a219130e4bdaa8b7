import CoolOnline.Wsd.TileInvalidation
import Mathlib.Data.Int.Range
import Mathlib.Data.List.Nodup

/-! # Visible tiles

What a session of `wsd/ClientSession.cpp` asks for when an area of the document has changed: the
tiles of its panes that the area touches.
-/

namespace CoolOnline.Wsd

/-! ## The model -/

namespace Rectangle

/-- The constructor without values, from inverse extremes. -/
def empty : Rectangle := ⟨intMax, intMax, -2 ^ 31, -2 ^ 31⟩

def getRight (r : Rectangle) : Int := r.x2

def getBottom (r : Rectangle) : Int := r.y2

def hasSurface (r : Rectangle) : Bool := r.x1 < r.x2 && r.y1 < r.y2

/-- Whether the rectangle partially contains the other. -/
def intersects (r other : Rectangle) : Bool :=
  max r.x1 other.x1 ≤ min r.x2 other.x2 && max r.y1 other.y1 ≤ min r.y2 other.y2

end Rectangle

inductive SplitPaneName where
  | topLeft
  | topRight
  | bottomLeft
  | bottomRight
deriving DecidableEq, Repr

/-- What a session keeps of its client's view. -/
structure ClientSession where
  canonicalViewId : Int
  clientVisibleArea : Rectangle
  splitX : Int
  splitY : Int
  tileWidthPixel : Int
  tileHeightPixel : Int
  tileWidthTwips : Int
  tileHeightTwips : Int
  clientSelectedPart : Int
  clientSelectedMode : Int
  isTextDocument : Bool
  isCloseFrame : Bool

/-- `std::ceil` of a quotient of two `int`s. -/
def ceilDiv (n d : Int) : Int := -(-n).fdiv d

namespace ClientSession

variable {σ : Type} (s : ClientSession)

def getNormalizedVisibleArea : Rectangle where
  x1 := max s.clientVisibleArea.getLeft 0
  y1 := max s.clientVisibleArea.getTop 0
  x2 := s.clientVisibleArea.getRight
  y2 := s.clientVisibleArea.getBottom

def isSplitPane : SplitPaneName → Bool
  | .bottomRight => true
  | .topLeft => s.splitX != 0 && s.splitY != 0
  | .topRight => s.splitY != 0
  | .bottomLeft => s.splitX != 0

/-- The sums and differences are those of `int`s. -/
def getNormalizedVisiblePaneArea (paneName : SplitPaneName) : Rectangle :=
  let normalizedVisArea := s.getNormalizedVisibleArea
  if s.splitX = 0 ∧ s.splitY = 0 then
    if paneName = .bottomRight then normalizedVisArea else .empty
  else
    let freeStartX := toInt32 (normalizedVisArea.getLeft + s.splitX)
    let freeStartY := toInt32 (normalizedVisArea.getTop + s.splitY)
    let freeWidth := toInt32 (normalizedVisArea.getWidth - s.splitX)
    let freeHeight := toInt32 (normalizedVisArea.getHeight - s.splitY)
    match paneName with
    | .bottomRight => .ofExtent freeStartX freeStartY freeWidth freeHeight
    | .topLeft => if s.splitX ≠ 0 ∧ s.splitY ≠ 0 then .ofExtent 0 0 s.splitX s.splitY else .empty
    | .topRight => if s.splitY ≠ 0 then .ofExtent freeStartX 0 freeWidth s.splitY else .empty
    | .bottomLeft => if s.splitX ≠ 0 then .ofExtent 0 freeStartY s.splitX freeHeight else .empty

/-- The areas of the panes there are, in the order of their names. -/
def visiblePanes : List Rectangle :=
  ([.topLeft, .topRight, .bottomLeft, .bottomRight].filter s.isSplitPane).map
    s.getNormalizedVisiblePaneArea

/-- The panes that are looked at for an invalid area. -/
def paneRects (invalidateRect : Rectangle) : List Rectangle :=
  s.visiblePanes.filter fun rect => rect.intersects invalidateRect

/-- The rows and columns of tiles that the loops visit for a pane. -/
def visitedTiles (normalizedVisArea : Rectangle) : List (Int × Int) :=
  let lastVertTile := ceilDiv normalizedVisArea.getBottom s.tileHeightTwips
  let lastHoriTile := ceilDiv normalizedVisArea.getRight s.tileWidthTwips
  (Int.range (normalizedVisArea.getTop.tdiv s.tileHeightTwips) (lastVertTile + 1)).flatMap fun i =>
    (Int.range (normalizedVisArea.getLeft.tdiv s.tileWidthTwips) (lastHoriTile + 1)).map fun j =>
      (i, j)

def tileRect (index : Int × Int) : Rectangle :=
  .ofExtent (toInt32 (index.2 * s.tileWidthTwips)) (toInt32 (index.1 * s.tileHeightTwips))
    s.tileWidthTwips s.tileHeightTwips

/-- The description of a tile before it has wire ids. -/
def tileDesc (part mode : Int) (index : Int × Int) : TileDesc where
  canonicalViewId := s.canonicalViewId
  part := part
  mode := mode
  width := s.tileWidthPixel
  height := s.tileHeightPixel
  tilePosX := toInt32 (index.2 * s.tileWidthTwips)
  tilePosY := toInt32 (index.1 * s.tileHeightTwips)
  tileWidth := s.tileWidthTwips
  tileHeight := s.tileHeightTwips
  ver := -1
  imgSize := 0
  id := -1
  oldWireId := 0
  wireId := 0

/-- The wire ids of an invalid tile; if there is no tile in the cache, a keyframe is forced. -/
def withWireIds (c : TileCache σ) (desc : TileDesc) : TileDesc :=
  { desc with oldWireId := if (c.lookupTile desc).isNone then 0 else 1, wireId := 0 }

/-- One turn of the loops over the visible tiles; the constructor of the description may throw. -/
def visitTile (c : TileCache σ) (invalidateRect : Rectangle) (part mode : Int)
    (invalidTiles : List TileDesc) (index : Int × Int) : Option (List TileDesc) :=
  if invalidateRect.intersects (s.tileRect index) then
    (s.tileDesc part mode index).new.map fun desc =>
      -- check we don't have duplicates
      if invalidTiles.any fun it => it.key == desc.key then invalidTiles
      else invalidTiles ++ [withWireIds c desc]
  else some invalidTiles

/-- Whether no visible area has been received yet. -/
def lacksVisibleArea : Bool :=
  !s.clientVisibleArea.hasSurface || s.tileWidthPixel == 0 || s.tileHeightPixel == 0 ||
    s.tileWidthTwips == 0 || s.tileHeightTwips == 0 ||
    (s.clientSelectedPart == -1 && !s.isTextDocument)

/-- If no part is specified, the part used by the client is. -/
def invalidPart (m : Invalidation) : Int := if m.part = -1 then s.clientSelectedPart else m.part

/-- The tiles that `handleTileInvalidation` lists, for a cache whose tiles are already marked. -/
def invalidTiles (c : TileCache σ) (m : Invalidation) : Option (List TileDesc) :=
  if s.lacksVisibleArea || s.isCloseFrame then some []
  else if (s.invalidPart m = s.clientSelectedPart ∧ m.mode = s.clientSelectedMode) ∨
      s.isTextDocument = true then
    ((s.paneRects m.rectangle).flatMap s.visitedTiles).foldlM
      (s.visitTile c m.rectangle (s.invalidPart m) m.mode) []
  else some []

/-- `ClientSession::handleTileInvalidation`: the cache afterwards, and the combined tile that is
requested. -/
def handleTileInvalidation (c : TileCache σ) (message : Payload) :
    Option (TileCache σ × Option TileCombined) := do
  let m ← parseInvalidateMsg message
  let c := (c.invalidateTiles m s.canonicalViewId).1
  let tiles ← s.invalidTiles c m
  if tiles.isEmpty then some (c, none)
  else
    let tileCombined ← TileCombined.create tiles
    some (c, some { tileCombined with canonicalViewId := s.canonicalViewId })

end ClientSession

/-! ## What is to be asked for -/

/-- The points of a rectangle, with its edges. -/
def Rectangle.points (r : Rectangle) : Set (Int × Int) := Set.Icc (r.x1, r.y1) (r.x2, r.y2)

namespace ClientSession

variable {σ : Type} (s : ClientSession)

/-- The points of the grid tile in this row and column. -/
def gridTile (i j : Int) : Set (Int × Int) :=
  closedRectangle (j * s.tileWidthTwips) (i * s.tileHeightTwips) s.tileWidthTwips s.tileHeightTwips

/-- A grid tile that has points of the area of the message, and of a visible pane. -/
def Visible (m : Invalidation) (i j : Int) : Prop :=
  ∃ pane ∈ s.visiblePanes, (s.gridTile i j ∩ m.rectangle.points).Nonempty ∧
    (s.gridTile i j ∩ pane.points).Nonempty

/-- A grid tile that has points of the area of the message, and of a visible pane that itself has
points of the area; the tile reaches past the left and the top edge of the pane. -/
def Shown (m : Invalidation) (i j : Int) : Prop :=
  ∃ pane ∈ s.visiblePanes, (pane.points ∩ m.rectangle.points).Nonempty ∧
    (s.gridTile i j ∩ m.rectangle.points).Nonempty ∧ (s.gridTile i j ∩ pane.points).Nonempty ∧
    pane.x1 < (j + 1) * s.tileWidthTwips ∧ pane.y1 < (i + 1) * s.tileHeightTwips

/-- The tiles of an invalid area: tiles of the grid with the client's parameters, none of them
twice, all those that are needed, none outside the area, and a keyframe for those that are not in
the cache. -/
structure Requests (c : TileCache σ) (m : Invalidation) (needed : Int → Int → Prop)
    (tiles : List TileDesc) : Prop where
  grid : ∀ t ∈ tiles, ∃ i j, 0 ≤ i ∧ 0 ≤ j ∧
    t.key = ((s.tileDesc s.clientSelectedPart s.clientSelectedMode (i, j)).keyAt
      (j * s.tileWidthTwips) (i * s.tileHeightTwips))
  nodup : (tiles.map fun t => (t.tilePosX, t.tilePosY)).Nodup
  listed : ∀ i j, 0 ≤ i → 0 ≤ j → needed i j →
    (j * s.tileWidthTwips, i * s.tileHeightTwips) ∈ tiles.map fun t => (t.tilePosX, t.tilePosY)
  touched : ∀ t ∈ tiles, (closedRectangle t.tilePosX t.tilePosY t.tileWidth t.tileHeight ∩
    m.rectangle.points).Nonempty
  keyframe : ∀ t ∈ tiles, t.isForcedKeyFrame = true ↔ c.lookupTile t = none

/-- The tiles of a combined tile, if one is requested. -/
def requestedTiles (request : Option TileCombined) : List TileDesc :=
  (request.map (·.tiles)).getD []

/-- The message makes the session ask for the tiles that are needed. -/
def Rerequests (c : TileCache σ) (message : Payload) (m : Invalidation)
    (needed : Int → Int → Prop) : Prop :=
  ∃ request, s.handleTileInvalidation c message =
      some ((c.invalidateTiles m s.canonicalViewId).1, request) ∧
    s.Requests c m needed (requestedTiles request)

/-- The message is about the part and the mode of the client, which shows tiles of the document. -/
structure ShowsArea (m : Invalidation) : Prop where
  surface : s.clientVisibleArea.hasSurface = true
  tilePixels : 0 < s.tileWidthPixel ∧ 0 < s.tileHeightPixel
  tileTwips : 0 < s.tileWidthTwips ∧ 0 < s.tileHeightTwips
  viewId : 0 ≤ s.canonicalViewId
  part : 0 ≤ s.clientSelectedPart ∧ (m.part = -1 ∨ m.part = s.clientSelectedPart)
  mode : 0 ≤ s.clientSelectedMode ∧ m.mode = s.clientSelectedMode
  notClosing : s.isCloseFrame = false

/-- The split does not lie before the start of the document, and the edges of the panes and of the
tiles up to the last one visited are `int`s. -/
structure FitsInt : Prop where
  startX : 0 ≤ s.getNormalizedVisibleArea.x1 + s.splitX ∧
    s.getNormalizedVisibleArea.x1 + s.splitX ≤ intMax
  startY : 0 ≤ s.getNormalizedVisibleArea.y1 + s.splitY ∧
    s.getNormalizedVisibleArea.y1 + s.splitY ≤ intMax
  freeWidth : IsInt32 (s.getNormalizedVisibleArea.getWidth - s.splitX)
  freeHeight : IsInt32 (s.getNormalizedVisibleArea.getHeight - s.splitY)
  lastX : s.clientVisibleArea.x2 + s.tileWidthTwips ≤ intMax ∧
    s.splitX + s.tileWidthTwips ≤ intMax
  lastY : s.clientVisibleArea.y2 + s.tileHeightTwips ≤ intMax ∧
    s.splitY + s.tileHeightTwips ≤ intMax

end ClientSession

/-! ## Rectangles and the grid -/

theorem Rectangle.intersects_iff {r other : Rectangle} :
    r.intersects other = true ↔ (r.points ∩ other.points).Nonempty := by
  rw [points, points, Set.Icc_inter_Icc, Set.nonempty_Icc]
  simp only [intersects, Bool.and_eq_true, decide_eq_true_eq]
  rfl

theorem le_ceilDiv_iff {j n d : Int} (hd : 0 < d) : j ≤ ceilDiv n d ↔ (j - 1) * d < n := by
  have hlt : -n / d < -(j - 1) ↔ -n < -(j - 1) * d := Int.ediv_lt_iff_lt_mul hd
  rw [ceilDiv, Int.fdiv_eq_ediv_of_nonneg _ hd.le]
  rw [Int.neg_mul] at hlt
  omega

theorem tdiv_le_iff {j n d : Int} (hn : 0 ≤ n) (hd : 0 < d) : n.tdiv d ≤ j ↔ n < (j + 1) * d := by
  rw [Int.tdiv_eq_ediv_of_nonneg hn, ← Int.ediv_lt_iff_lt_mul hd]
  omega

namespace ClientSession

section

variable {σ : Type} {s : ClientSession} {m : Invalidation}

/-- The panes lie in the document, and a tile past their edges starts within an `int`. -/
theorem pane_bounds (hm : s.ShowsArea m) (hs : s.FitsInt) {pane : Rectangle}
    (hpane : pane ∈ s.visiblePanes) :
    (0 ≤ pane.x1 ∧ 0 ≤ pane.y1) ∧ pane.x2 + s.tileWidthTwips ≤ intMax ∧
      pane.y2 + s.tileHeightTwips ≤ intMax := by
  obtain ⟨name, hname, rfl⟩ := List.mem_map.mp hpane
  have hsplit := (List.mem_filter.mp hname).2
  have hsurface := hm.surface
  obtain ⟨htw, hth⟩ := hm.tileTwips
  obtain ⟨hx, hy, hwidth, hheight, hlastX, hlastY⟩ := hs
  have hstartX : toInt32 (s.getNormalizedVisibleArea.getLeft + s.splitX) = _ :=
    toInt32_of_le hx.1 hx.2
  have hstartY : toInt32 (s.getNormalizedVisibleArea.getTop + s.splitY) = _ :=
    toInt32_of_le hy.1 hy.2
  simp only [Rectangle.hasSurface, Bool.and_eq_true, decide_eq_true_eq] at hsurface
  rw [getNormalizedVisiblePaneArea]
  simp only [hstartX, hstartY, toInt32_of_isInt32 hwidth, toInt32_of_isInt32 hheight]
  simp only [getNormalizedVisibleArea, Rectangle.getLeft, Rectangle.getTop, Rectangle.getRight,
    Rectangle.getBottom, Rectangle.getWidth, Rectangle.getHeight] at hx hy ⊢
  by_cases hnone : s.splitX = 0 ∧ s.splitY = 0
  · rw [if_pos hnone]
    cases name with
    | bottomRight => exact ⟨⟨by simp, by simp⟩, hlastX.1, hlastY.1⟩
    | topLeft => simp [isSplitPane, hnone] at hsplit
    | topRight => simp [isSplitPane, hnone] at hsplit
    | bottomLeft => simp [isSplitPane, hnone] at hsplit
  · rw [if_neg hnone]
    cases name with
    | bottomRight =>
        simp only [Rectangle.ofExtent]
        omega
    | topLeft =>
        have hboth : s.splitX ≠ 0 ∧ s.splitY ≠ 0 := by simpa [isSplitPane] using hsplit
        simp only [if_pos hboth, Rectangle.ofExtent]
        omega
    | topRight =>
        have hsplitY : s.splitY ≠ 0 := by simpa [isSplitPane] using hsplit
        simp only [if_pos hsplitY, Rectangle.ofExtent]
        omega
    | bottomLeft =>
        have hsplitX : s.splitX ≠ 0 := by simpa [isSplitPane] using hsplit
        simp only [if_pos hsplitX, Rectangle.ofExtent]
        omega

/-- The tiles that the loops visit for a pane. -/
theorem mem_visitedTiles {pane : Rectangle} (hleft : 0 ≤ pane.x1) (htop : 0 ≤ pane.y1)
    (htw : 0 < s.tileWidthTwips) (hth : 0 < s.tileHeightTwips) {i j : Int} :
    (i, j) ∈ s.visitedTiles pane ↔
      (pane.y1 < (i + 1) * s.tileHeightTwips ∧ (i - 1) * s.tileHeightTwips < pane.y2) ∧
        pane.x1 < (j + 1) * s.tileWidthTwips ∧ (j - 1) * s.tileWidthTwips < pane.x2 := by
  rw [← tdiv_le_iff htop hth, ← tdiv_le_iff hleft htw, ← le_ceilDiv_iff hth, ← le_ceilDiv_iff htw]
  simp only [visitedTiles, List.mem_flatMap, List.mem_map, Int.mem_range_iff, Prod.mk.injEq,
    Rectangle.getTop, Rectangle.getLeft, Rectangle.getBottom, Rectangle.getRight,
    Int.lt_add_one_iff]
  constructor
  · rintro ⟨i, hi, j, hj, rfl, rfl⟩
    exact ⟨hi, hj⟩
  · rintro ⟨hi, hj⟩
    exact ⟨i, hi, j, hj, rfl, rfl⟩

/-- A row and a column of the grid where a tile starts within an `int`. -/
structure OnGrid (s : ClientSession) (index : Int × Int) : Prop where
  row : 0 ≤ index.1 ∧ index.1 * s.tileHeightTwips ≤ intMax
  column : 0 ≤ index.2 ∧ index.2 * s.tileWidthTwips ≤ intMax

theorem onGrid_of_visited (hm : s.ShowsArea m) (hs : s.FitsInt) {pane : Rectangle}
    (hpane : pane ∈ s.visiblePanes) {index : Int × Int} (h : index ∈ s.visitedTiles pane) :
    s.OnGrid index := by
  obtain ⟨i, j⟩ := index
  obtain ⟨htw, hth⟩ := hm.tileTwips
  obtain ⟨⟨hleft, htop⟩, hright, hbottom⟩ := pane_bounds hm hs hpane
  obtain ⟨⟨hi, hi'⟩, hj, hj'⟩ := (mem_visitedTiles hleft htop htw hth).mp h
  have hrow : 0 < i + 1 := Int.pos_of_mul_pos_left (by omega) hth
  have hcolumn : 0 < j + 1 := Int.pos_of_mul_pos_left (by omega) htw
  rw [Int.sub_mul, Int.one_mul] at hi' hj'
  exact ⟨⟨by omega, by dsimp only; omega⟩, ⟨by omega, by dsimp only; omega⟩⟩

theorem OnGrid.tilePosX {index : Int × Int} (h : s.OnGrid index) (hm : s.ShowsArea m) :
    toInt32 (index.2 * s.tileWidthTwips) = index.2 * s.tileWidthTwips :=
  toInt32_of_le (Int.mul_nonneg h.column.1 hm.tileTwips.1.le) h.column.2

theorem OnGrid.tilePosY {index : Int × Int} (h : s.OnGrid index) (hm : s.ShowsArea m) :
    toInt32 (index.1 * s.tileHeightTwips) = index.1 * s.tileHeightTwips :=
  toInt32_of_le (Int.mul_nonneg h.row.1 hm.tileTwips.2.le) h.row.2

/-! ## The loops -/

/-- The tile that is listed for a row and a column. -/
def listedTile (s : ClientSession) (c : TileCache σ) (index : Int × Int) : TileDesc :=
  withWireIds c (s.tileDesc s.clientSelectedPart s.clientSelectedMode index)

theorem OnGrid.isValid {index : Int × Int} (h : s.OnGrid index) (hm : s.ShowsArea m) :
    (s.tileDesc s.clientSelectedPart s.clientSelectedMode index).isValid = true := by
  have hx : 0 ≤ index.2 * s.tileWidthTwips := Int.mul_nonneg h.column.1 hm.tileTwips.1.le
  have hy : 0 ≤ index.1 * s.tileHeightTwips := Int.mul_nonneg h.row.1 hm.tileTwips.2.le
  have hview := hm.viewId
  have hpart := hm.part.1
  have hmode := hm.mode.1
  obtain ⟨hwidth, hheight⟩ := hm.tilePixels
  obtain ⟨htw, hth⟩ := hm.tileTwips
  simp only [TileDesc.isValid, tileDesc, h.tilePosX hm, h.tilePosY hm, Bool.and_eq_true,
    decide_eq_true_eq]
  omega

/-- Tiles in different places have different keys. -/
theorem key_listedTile_iff (hm : s.ShowsArea m) {c : TileCache σ} {index index' : Int × Int}
    (h : s.OnGrid index) (h' : s.OnGrid index') :
    (s.listedTile c index).key =
        (s.tileDesc s.clientSelectedPart s.clientSelectedMode index').key ↔ index = index' := by
  constructor
  · intro heq
    simp only [TileDesc.key, TileDesc.keyAt, listedTile, withWireIds, tileDesc, h.tilePosX hm,
      h.tilePosY hm, h'.tilePosX hm, h'.tilePosY hm, List.cons.injEq, and_true, true_and] at heq
    have hrow := Int.eq_of_mul_eq_mul_right hm.tileTwips.2.ne' heq.1
    have hcolumn := Int.eq_of_mul_eq_mul_right hm.tileTwips.1.ne' heq.2
    exact Prod.ext hrow hcolumn
  · rintro rfl
    rfl

/-- One turn lists the tile if the area touches it and it is not there yet. -/
theorem visitTile_eq (hm : s.ShowsArea m) (c : TileCache σ) (r : Rectangle)
    {listed : List (Int × Int)} (hlisted : ∀ index ∈ listed, s.OnGrid index) {index : Int × Int}
    (h : s.OnGrid index) :
    s.visitTile c r s.clientSelectedPart s.clientSelectedMode (listed.map (s.listedTile c)) index =
      some ((if r.intersects (s.tileRect index) = true ∧ index ∉ listed then listed ++ [index]
        else listed).map (s.listedTile c)) := by
  have hnew : (s.tileDesc s.clientSelectedPart s.clientSelectedMode index).new = some _ :=
    if_pos (h.isValid hm)
  have hany : ((listed.map (s.listedTile c)).any fun it => it.key ==
      (s.tileDesc s.clientSelectedPart s.clientSelectedMode index).key) = true ↔
      index ∈ listed := by
    simp only [List.any_map, List.any_eq_true, Function.comp_apply, beq_iff_eq]
    constructor
    · rintro ⟨other, hother, hkey⟩
      exact (key_listedTile_iff hm (hlisted other hother) h).mp hkey ▸ hother
    · intro hmem
      exact ⟨index, hmem, (key_listedTile_iff hm h h).mpr rfl⟩
  by_cases htouched : r.intersects (s.tileRect index) = true
  · by_cases hmem : index ∈ listed
    · simp only [visitTile, if_pos htouched, hnew, Option.map_some, if_pos (hany.mpr hmem), hmem,
        not_true_eq_false, and_false, if_false]
    · simp only [visitTile, htouched, hnew, Option.map_some, if_neg (mt hany.mp hmem), hmem,
        not_false_eq_true, and_true, if_true, List.map_append, List.map_cons, List.map_nil]
      rfl
  · have hnot : ¬ (r.intersects (s.tileRect index) = true ∧ index ∉ listed) :=
      fun h => htouched h.1
    rw [visitTile, if_neg htouched, if_neg hnot]

/-- The loops list the tiles that the area touches, none of them twice. -/
theorem foldlM_visitTile (hm : s.ShowsArea m) (c : TileCache σ) (r : Rectangle)
    {indices listed : List (Int × Int)} (hindices : ∀ index ∈ indices, s.OnGrid index)
    (hlisted : ∀ index ∈ listed, s.OnGrid index) (hnodup : listed.Nodup) :
    ∃ listed' : List (Int × Int),
      indices.foldlM (s.visitTile c r s.clientSelectedPart s.clientSelectedMode)
        (listed.map (s.listedTile c)) = some (listed'.map (s.listedTile c)) ∧ listed'.Nodup ∧
      ∀ index, index ∈ listed' ↔
        index ∈ listed ∨ index ∈ indices ∧ r.intersects (s.tileRect index) = true := by
  induction indices generalizing listed with
  | nil => exact ⟨listed, rfl, hnodup, fun index => by simp⟩
  | cons index indices ih =>
      have hindex := hindices index (by simp)
      rw [List.foldlM_cons, visitTile_eq hm c r hlisted hindex]
      by_cases htouched : r.intersects (s.tileRect index) = true ∧ index ∉ listed
      · rw [if_pos htouched]
        have hlisted' : ∀ other ∈ listed ++ [index], s.OnGrid other :=
          List.forall_mem_append.mpr ⟨hlisted, by simpa using hindex⟩
        have hnodup' : (listed ++ [index]).Nodup :=
          hnodup.append (List.nodup_singleton index) (List.disjoint_singleton.mpr htouched.2)
        obtain ⟨listed', heq, hnodup', hmem⟩ := ih
          (fun other hother => hindices other (List.mem_cons_of_mem _ hother)) hlisted' hnodup'
        refine ⟨listed', heq, hnodup', fun other => ?_⟩
        rw [hmem, List.mem_append, List.mem_singleton, List.mem_cons]
        by_cases hother : other = index
        · simp [hother, htouched.1]
        · simp [hother]
      · rw [if_neg htouched]
        obtain ⟨listed', heq, hnodup', hmem⟩ := ih
          (fun other hother => hindices other (List.mem_cons_of_mem _ hother)) hlisted hnodup
        refine ⟨listed', heq, hnodup', fun other => ?_⟩
        rw [hmem, List.mem_cons]
        by_cases hother : other = index
        · have himp : r.intersects (s.tileRect other) = true → other ∈ listed := by
            intro h
            exact not_not.mp fun hnot => htouched (hother ▸ ⟨h, hnot⟩)
          simp only [hother] at himp ⊢
          tauto
        · simp [hother]

/-- The tiles that are listed for a message. -/
theorem invalidTiles_eq (hm : s.ShowsArea m) (hs : s.FitsInt) (c : TileCache σ) :
    ∃ listed : List (Int × Int), s.invalidTiles c m = some (listed.map (s.listedTile c)) ∧
      listed.Nodup ∧ ∀ index, index ∈ listed ↔
        (∃ pane ∈ s.paneRects m.rectangle, index ∈ s.visitedTiles pane) ∧
          m.rectangle.intersects (s.tileRect index) = true := by
  obtain ⟨hwidth, hheight⟩ := hm.tilePixels
  obtain ⟨htw, hth⟩ := hm.tileTwips
  have hpart : s.invalidPart m = s.clientSelectedPart := by
    rcases hm.part.2 with hall | hsame
    · rw [invalidPart, if_pos hall]
    · rw [invalidPart, hsame, ite_self]
  have hreceived : ¬ (s.lacksVisibleArea || s.isCloseFrame) = true := by
    have hselected := hm.part.1
    simp only [lacksVisibleArea, hm.surface, hm.notClosing, Bool.not_true, Bool.false_or,
      Bool.or_false, Bool.or_eq_true, Bool.and_eq_true, beq_iff_eq]
    omega
  have hgrid : ∀ index ∈ (s.paneRects m.rectangle).flatMap s.visitedTiles, s.OnGrid index := by
    intro index hindex
    obtain ⟨pane, hpane, hvisited⟩ := List.mem_flatMap.mp hindex
    exact onGrid_of_visited hm hs (List.mem_filter.mp hpane).1 hvisited
  obtain ⟨listed, heq, hnodup, hmem⟩ := foldlM_visitTile hm c m.rectangle hgrid
    (List.forall_mem_nil _) List.nodup_nil
  refine ⟨listed, ?_, hnodup, fun index => ?_⟩
  · rw [invalidTiles, if_neg hreceived, hpart, if_pos (Or.inl ⟨rfl, hm.mode.2⟩), hm.mode.2]
    exact heq
  · rw [hmem, List.mem_flatMap]
    simp

/-! ## The tiles that are needed -/

theorem mem_gridTile {i j : Int} {p : Int × Int} :
    p ∈ s.gridTile i j ↔ (j * s.tileWidthTwips ≤ p.1 ∧ i * s.tileHeightTwips ≤ p.2) ∧
      p.1 ≤ j * s.tileWidthTwips + s.tileWidthTwips ∧
        p.2 ≤ i * s.tileHeightTwips + s.tileHeightTwips := by
  rw [gridTile, closedRectangle, Set.mem_Icc]
  rfl

theorem mem_points {r : Rectangle} {p : Int × Int} :
    p ∈ r.points ↔ (r.x1 ≤ p.1 ∧ r.y1 ≤ p.2) ∧ p.1 ≤ r.x2 ∧ p.2 ≤ r.y2 := by
  rw [Rectangle.points, Set.mem_Icc]
  rfl

/-- The rectangle that the code compares is the tile, but for an edge that is no `int`. -/
theorem OnGrid.tileRect_eq {index : Int × Int} (h : s.OnGrid index) (hm : s.ShowsArea m) :
    s.tileRect index = .ofExtent (index.2 * s.tileWidthTwips) (index.1 * s.tileHeightTwips)
      s.tileWidthTwips s.tileHeightTwips := by
  rw [tileRect, h.tilePosX hm, h.tilePosY hm]

theorem OnGrid.points_subset {index : Int × Int} (h : s.OnGrid index) (hm : s.ShowsArea m) :
    (s.tileRect index).points ⊆ s.gridTile index.1 index.2 := by
  intro p hp
  obtain ⟨htw, hth⟩ := hm.tileTwips
  rw [h.tileRect_eq hm, mem_points] at hp
  rw [mem_gridTile]
  simp only [Rectangle.ofExtent] at hp
  omega

/-- A tile that is needed for a pane is visited for it, and taken for touched. -/
theorem Shown.listed {i j : Int} (hm : s.ShowsArea m) (hs : s.FitsInt) (h : s.Shown m i j) :
    (∃ pane ∈ s.paneRects m.rectangle, (i, j) ∈ s.visitedTiles pane) ∧
      m.rectangle.intersects (s.tileRect (i, j)) = true := by
  obtain ⟨pane, hpane, hmeets, ⟨p, hp, harea⟩, ⟨q, hq, hq'⟩, hleft, htop⟩ := h
  obtain ⟨htw, hth⟩ := hm.tileTwips
  obtain ⟨⟨hleft0, htop0⟩, hright, hbottom⟩ := pane_bounds hm hs hpane
  rw [mem_gridTile] at hp hq
  rw [mem_points] at hq'
  have hvisited : (i, j) ∈ s.visitedTiles pane := by
    rw [mem_visitedTiles hleft0 htop0 htw hth, Int.sub_mul, Int.sub_mul]
    omega
  have hgrid := onGrid_of_visited hm hs hpane hvisited
  refine ⟨⟨pane, List.mem_filter.mpr ⟨hpane, Rectangle.intersects_iff.mpr hmeets⟩, hvisited⟩, ?_⟩
  rw [Rectangle.intersects_iff]
  refine ⟨p, harea, ?_⟩
  rw [hgrid.tileRect_eq hm, mem_points]
  simp only [Rectangle.ofExtent]
  -- the tile has points of the pane, so its right and bottom edges are not past the bounds
  omega

theorem isNone_lookupTile_invalidateTiles (c : TileCache σ) (m : Invalidation) (viewId : Int)
    (desc : TileDesc) :
    ((c.invalidateTiles m viewId).1.lookupTile desc).isNone = (c.lookupTile desc).isNone := by
  have hfind : ((c.invalidateTiles m viewId).1.findTile desc).isNone =
      (c.findTile desc).isNone := by
    have hkey : ((fun entry : TileDesc × TileData => cacheKey entry.1 == cacheKey desc) ∘
        fun entry => if m.intersects viewId entry.1 then (entry.1, entry.2.invalidate) else entry) =
        fun entry => cacheKey entry.1 == cacheKey desc := by
      funext entry
      simp only [Function.comp_apply]
      split <;> rfl
    simp only [TileCache.findTile, TileCache.invalidateTiles, List.find?_map, hkey,
      Option.isNone_map]
  rw [TileCache.lookupTile, TileCache.lookupTile]
  change (if c.dontCache then none else _).isNone = _
  cases c.dontCache with
  | true => rfl
  | false => exact hfind

/-- A keyframe is forced for the tiles that are not in the cache. -/
theorem isForcedKeyFrame_listedTile (c : TileCache σ) (index : Int × Int) :
    (s.listedTile c index).isForcedKeyFrame = (c.lookupTile (s.listedTile c index)).isNone := by
  have hlookup : c.lookupTile (s.listedTile c index) =
      c.lookupTile (s.tileDesc s.clientSelectedPart s.clientSelectedMode index) :=
    c.lookupTile_congr rfl
  rw [hlookup, TileDesc.isForcedKeyFrame, listedTile, withWireIds]
  cases (c.lookupTile (s.tileDesc s.clientSelectedPart s.clientSelectedMode index)).isNone <;> rfl

theorem OnGrid.wellFormed {index : Int × Int} (h : s.OnGrid index) (hm : s.ShowsArea m)
    (c : TileCache σ) : (s.listedTile c index).WellFormed := by
  have hx := Int.mul_nonneg h.column.1 hm.tileTwips.1.le
  have hy := Int.mul_nonneg h.row.1 hm.tileTwips.2.le
  have hx' := h.column.2
  have hy' := h.row.2
  rw [intMax] at hx' hy'
  refine ⟨h.isValid hm, ?_, ?_, (by decide : IsInt32 (-1)), (by decide : IsInt32 0), ?_, ?_⟩
  · change IsInt32 (toInt32 _)
    rw [h.tilePosX hm, IsInt32]
    omega
  · change IsInt32 (toInt32 _)
    rw [h.tilePosY hm, IsInt32]
    omega
  · change (if (c.lookupTile _).isNone then 0 else 1) < 2 ^ 32
    split <;> decide
  · exact (by decide : 0 < 2 ^ 32)

/-- The tiles that are listed are combined as they are. -/
theorem create_listed (hm : s.ShowsArea m) (c : TileCache σ) {first : Int × Int}
    {rest : List (Int × Int)} (hgrid : ∀ index ∈ first :: rest, s.OnGrid index) :
    ∃ combined, TileCombined.create ((first :: rest).map (s.listedTile c)) = some combined ∧
      combined.tiles = (first :: rest).map (s.listedTile c) := by
  have htiles : ∀ t ∈ s.listedTile c first :: rest.map (s.listedTile c),
      t.WellFormed ∧ (s.listedTile c first).sameTileCombineParams t = true := by
    intro t ht
    rw [← List.map_cons] at ht
    obtain ⟨index, hindex, rfl⟩ := List.mem_map.mp ht
    refine ⟨(hgrid index hindex).wellFormed hm c, ?_⟩
    simp [TileDesc.sameTileCombineParams, listedTile, withWireIds, tileDesc]
  refine ⟨_, TileCombined.create_eq htiles, ?_⟩
  rw [← List.map_cons, List.map_map]
  rfl

/-- What is listed is what the session is to ask for. -/
theorem requests_of_listed (hm : s.ShowsArea m) (hs : s.FitsInt) (c : TileCache σ)
    {listed : List (Int × Int)} (hnodup : listed.Nodup)
    (hmem : ∀ index, index ∈ listed ↔
      (∃ pane ∈ s.paneRects m.rectangle, index ∈ s.visitedTiles pane) ∧
        m.rectangle.intersects (s.tileRect index) = true) :
    s.Requests c m (s.Shown m) (listed.map
      (s.listedTile (c.invalidateTiles m s.canonicalViewId).1)) := by
  have hgrid : ∀ index ∈ listed, s.OnGrid index := by
    intro index hindex
    obtain ⟨⟨pane, hpane, hvisited⟩, -⟩ := (hmem index).mp hindex
    exact onGrid_of_visited hm hs (List.mem_filter.mp hpane).1 hvisited
  constructor
  · intro t ht
    obtain ⟨index, hindex, rfl⟩ := List.mem_map.mp ht
    have h := hgrid index hindex
    refine ⟨index.1, index.2, h.row.1, h.column.1, ?_⟩
    simp only [TileDesc.key, TileDesc.keyAt, listedTile, withWireIds, tileDesc, h.tilePosX hm,
      h.tilePosY hm]
  · rw [List.map_map]
    apply List.Nodup.map_on _ hnodup
    intro index hindex index' hindex' heq
    simp only [Function.comp_apply, listedTile, withWireIds, tileDesc,
      (hgrid index hindex).tilePosX hm, (hgrid index hindex).tilePosY hm,
      (hgrid index' hindex').tilePosX hm, (hgrid index' hindex').tilePosY hm,
      Prod.mk.injEq] at heq
    exact Prod.ext (Int.eq_of_mul_eq_mul_right hm.tileTwips.2.ne' heq.2)
      (Int.eq_of_mul_eq_mul_right hm.tileTwips.1.ne' heq.1)
  · intro i j _ _ hshown
    have hindex := (hmem (i, j)).mpr (hshown.listed hm hs)
    have h := hgrid _ hindex
    rw [List.map_map]
    refine List.mem_map.mpr ⟨(i, j), hindex, ?_⟩
    exact Prod.ext (h.tilePosX hm) (h.tilePosY hm)
  · intro t ht
    obtain ⟨index, hindex, rfl⟩ := List.mem_map.mp ht
    have h := hgrid index hindex
    obtain ⟨p, harea, hp⟩ := Rectangle.intersects_iff.mp ((hmem index).mp hindex).2
    refine ⟨p, ?_, harea⟩
    have hin := h.points_subset hm hp
    change p ∈ closedRectangle (toInt32 _) (toInt32 _) _ _
    rw [h.tilePosX hm, h.tilePosY hm]
    exact hin
  · intro t ht
    obtain ⟨index, hindex, rfl⟩ := List.mem_map.mp ht
    rw [← Option.isNone_iff_eq_none, ← isNone_lookupTile_invalidateTiles c m s.canonicalViewId,
      isForcedKeyFrame_listedTile]

/-- An invalid area makes a session ask for the tiles that it touches of the panes that it meets. -/
theorem rerequests_shown {message : Payload} (hparse : parseInvalidateMsg message = some m)
    (hm : s.ShowsArea m) (hs : s.FitsInt) (c : TileCache σ) :
    s.Rerequests c message m (s.Shown m) := by
  obtain ⟨listed, heq, hnodup, hmem⟩ :=
    invalidTiles_eq hm hs (c.invalidateTiles m s.canonicalViewId).1
  have hrequests := requests_of_listed hm hs c hnodup hmem
  have hgrid : ∀ index ∈ listed, s.OnGrid index := by
    intro index hindex
    obtain ⟨⟨pane, hpane, hvisited⟩, -⟩ := (hmem index).mp hindex
    exact onGrid_of_visited hm hs (List.mem_filter.mp hpane).1 hvisited
  rw [Rerequests]
  simp only [handleTileInvalidation, hparse, heq, Option.bind_eq_bind, Option.bind_some]
  cases listed with
  | nil => exact ⟨none, rfl, hrequests⟩
  | cons first rest =>
      obtain ⟨combined, hcreate, htiles⟩ := create_listed hm _ hgrid
      rw [hcreate]
      refine ⟨some { combined with canonicalViewId := s.canonicalViewId }, rfl, ?_⟩
      rw [← htiles] at hrequests
      exact hrequests

end

/-- A session whose client sees an area of 100 twips from this column on, in tiles of 200 twips. -/
def viewing (x : Int) : ClientSession :=
  ⟨0, .ofExtent x 0 100 100, 0, 0, 256, 256, 200, 200, 0, 0, false, false⟩

/-- The area of the message lies in the tile that the client sees. -/
theorem rerequests_viewing : (viewing 0).Rerequests (.new false : TileCache Nat)
    "invalidatetiles: part=0 x=50 y=0 width=10 height=10 wid=7".toList ⟨0, 0, 50, 0, 10, 10, 7⟩
    ((viewing 0).Shown ⟨0, 0, 50, 0, 10, 10, 7⟩) :=
  rerequests_shown (by decide +kernel) (by constructor <;> decide) (by constructor <;> decide) _

/-- An area right of what the client sees, in the same tile. -/
def besideArea : Invalidation := ⟨0, 0, 150, 0, 100, 10, 7⟩

def besideMessage : Payload := "invalidatetiles: part=0 x=150 y=0 width=100 height=10 wid=7".toList

theorem visible_beside {x : Int} (hx : x = 0 ∨ x = 200) :
    (viewing x).Visible besideArea 0 0 := by
  rcases hx with rfl | rfl
  · refine ⟨(viewing 0).getNormalizedVisibleArea, by decide, ⟨(150, 0), ?_⟩, ⟨(0, 0), ?_⟩⟩ <;>
      rw [Set.mem_inter_iff, mem_gridTile, mem_points] <;> decide
  · refine ⟨(viewing 200).getNormalizedVisibleArea, by decide, ⟨(150, 0), ?_⟩, ⟨(200, 0), ?_⟩⟩ <;>
      rw [Set.mem_inter_iff, mem_gridTile, mem_points] <;> decide

/-- Neither of the two sessions asks for the first tile. -/
theorem not_rerequests_beside {x : Int} (hx : x = 0 ∨ x = 200) {needed : Int → Int → Prop}
    (hneeded : needed 0 0) :
    ¬ (viewing x).Rerequests (.new false : TileCache Nat) besideMessage besideArea needed := by
  rintro ⟨request, heq, hrequests⟩
  have hpositions : ∃ positions, ((viewing x).handleTileInvalidation
      (.new false : TileCache Nat) besideMessage).map (fun r =>
        (requestedTiles r.2).map fun t => (t.tilePosX, t.tilePosY)) = some positions ∧
      (0, 0) ∉ positions := by
    rcases hx with rfl | rfl
    · exact ⟨[], by decide +kernel, by decide⟩
    · exact ⟨[(200, 0)], by decide +kernel, by decide⟩
  obtain ⟨positions, hpositions, hnot⟩ := hpositions
  rw [heq] at hpositions
  cases hpositions
  have hlisted := hrequests.listed 0 0 le_rfl le_rfl hneeded
  rw [Int.zero_mul, Int.zero_mul] at hlisted
  exact hnot hlisted

/-- A tile that the client sees is not asked for if no pane meets the area, and neither is one left
of the pane that has its edge. -/
theorem visible_tiles_skipped :
    (¬ ∀ (s : ClientSession) (c : TileCache Nat) (message : Payload) (m : Invalidation),
        parseInvalidateMsg message = some m → s.ShowsArea m → s.FitsInt →
        s.Rerequests c message m (s.Visible m)) ∧
      ¬ (viewing 200).Rerequests (.new false : TileCache Nat) besideMessage besideArea fun i j =>
        (viewing 200).Visible besideArea i j ∧ ∀ pane ∈ (viewing 200).visiblePanes,
          (pane.points ∩ besideArea.rectangle.points).Nonempty := by
  constructor
  · intro h
    exact not_rerequests_beside (.inl rfl) (visible_beside (.inl rfl))
      (h (viewing 0) (.new false) besideMessage besideArea (by decide +kernel)
        (by constructor <;> decide) (by constructor <;> decide))
  · refine not_rerequests_beside (.inr rfl) ⟨visible_beside (.inr rfl), fun pane hpane => ?_⟩
    rw [List.mem_singleton.mp (hpane : pane ∈ [(viewing 200).getNormalizedVisibleArea]),
      ← Rectangle.intersects_iff]
    decide

end ClientSession

end CoolOnline.Wsd
