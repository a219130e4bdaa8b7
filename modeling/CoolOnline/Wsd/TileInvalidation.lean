import CoolOnline.Wsd.TileCache
import Mathlib.Data.Int.ConditionallyCompleteOrder
import Mathlib.Order.ConditionallyCompleteLattice.Basic
import Mathlib.Order.Interval.Set.Basic

/-! # Invalidated tiles

The messages of the Kit that tell which area has changed, and the cached tiles that
`wsd/TileCache.cpp` marks as invalid for it.
-/

namespace CoolOnline.Wsd

open StringVector COOLProtocol

def intMax : Int := 2 ^ 31 - 1

/-! ## The model -/

/-- `Util::Rectangle`: left, top, right and bottom. -/
structure Rectangle where
  x1 : Int
  y1 : Int
  x2 : Int
  y2 : Int
deriving DecidableEq, Repr

namespace Rectangle

/-- The constructor from an extent: if the width or the height exceeds the maximum, its addition is
dropped. -/
def ofExtent (x y width height : Int) : Rectangle where
  x1 := x
  y1 := y
  x2 := if x + width ≤ intMax then x + width else x
  y2 := if y + height ≤ intMax then y + height else y

def getLeft (r : Rectangle) : Int := r.x1

def getTop (r : Rectangle) : Int := r.y1

def getWidth (r : Rectangle) : Int := if -2 ^ 31 < r.x2 - r.x1 then r.x2 - r.x1 else -2 ^ 31

def getHeight (r : Rectangle) : Int := if -2 ^ 31 < r.y2 - r.y1 then r.y2 - r.y1 else -2 ^ 31

end Rectangle

/-- What an invalidation message says; a part of -1 stands for all parts. -/
structure Invalidation where
  part : Int
  mode : Int
  x : Int
  y : Int
  width : Int
  height : Int
  wireId : Nat
deriving DecidableEq, Repr

namespace Invalidation

def whole (part mode : Int) (wireId : Nat) : Invalidation :=
  ⟨part, mode, 0, 0, intMax, intMax, wireId⟩

def rectangle (m : Invalidation) : Rectangle := .ofExtent m.x m.y m.width m.height

end Invalidation

/-- `StringVector::getUInt32` for the wire id, which may not be the largest number. -/
def getWireId (token : Payload) : Option Nat :=
  (getUInt32 token "wid".toList).filter fun wireId => wireId < 2 ^ 32 - 1

def getNonNegTokenInteger (token name : Payload) : Option Int :=
  (getTokenInteger token name).filter fun value => 0 ≤ value

/-- The end of a message that gives an area. -/
def parseArea (part mode : Int) (x y width height wid : Payload) : Option Invalidation := do
  let x ← getNonNegTokenInteger x "x".toList
  let y ← getNonNegTokenInteger y "y".toList
  let width ← getNonNegTokenInteger width "width".toList
  let height ← getNonNegTokenInteger height "height".toList
  let wireId ← getWireId wid
  some ⟨part, mode, x, y, width, height, wireId⟩

/-- The tokens after the first of them. -/
def parseInvalidated : List Payload → Option Invalidation
  | [empty] => if empty = "EMPTY".toList then some (.whole (-1) 0 0) else none
  | [empty, wid] =>
      if empty = "EMPTY,".toList then (getWireId wid).map (.whole (-1) 0) else none
  | [empty, part, wid] =>
      if empty = "EMPTY,".toList then do
        let part ← i32FromString part
        (getWireId wid).map (.whole part 0)
      else none
  | [empty, part, mode, wid] =>
      if empty = "EMPTY,".toList then do
        let part ← i32FromString part
        let mode ← i32FromString mode
        (getWireId wid).map (.whole part mode)
      else none
  | [part, x, y, width, height, wid] => do
      let part ← getTokenInteger part "part".toList
      parseArea part 0 x y width height wid
  | [part, mode, x, y, width, height, wid] => do
      let part ← getTokenInteger part "part".toList
      let mode ← getTokenInteger mode "mode".toList
      parseArea part mode x y width height wid
  | _ => none

/-- `TileCache::parseInvalidateMsg`; on other messages an assertion fails. -/
def parseInvalidateMsg (tiles : Payload) : Option Invalidation :=
  match tokenize tiles ' ' with
  | [] => none
  | first :: rest => if first = "invalidatetiles:".toList then parseInvalidated rest else none

def TileData.invalidate (t : TileData) : TileData := { t with valid := false }

/-- `TileCache::intersectsTile`; the right and bottom edges are sums of `int`s. -/
def intersectsTile (tileDesc : TileDesc) (part mode x y width height canonicalViewId : Int) : Bool :=
  if part ≠ -1 ∧ tileDesc.part ≠ part then false
  else if mode ≠ tileDesc.mode then false
  else if canonicalViewId ≠ tileDesc.canonicalViewId then false
  else
    let left := max x tileDesc.tilePosX
    let right := min (toInt32 (x + width)) (toInt32 (tileDesc.tilePosX + tileDesc.tileWidth))
    let top := max y tileDesc.tilePosY
    let bottom := min (toInt32 (y + height)) (toInt32 (tileDesc.tilePosY + tileDesc.tileHeight))
    left ≤ right && top ≤ bottom

/-- What `invalidateTiles` passes on of a message. -/
def Invalidation.intersects (m : Invalidation) (canonicalViewId : Int) (desc : TileDesc) : Bool :=
  intersectsTile desc m.part m.mode m.rectangle.getLeft m.rectangle.getTop m.rectangle.getWidth
    m.rectangle.getHeight canonicalViewId

namespace TileCache

variable {σ : Type}

/-- `TileCache::invalidateTiles`, and whether there were tiles. -/
def invalidateTiles (c : TileCache σ) (m : Invalidation) (canonicalViewId : Int) :
    TileCache σ × Bool :=
  ({ c with
      cache := c.cache.map fun entry =>
        if m.intersects canonicalViewId entry.1 then (entry.1, entry.2.invalidate) else entry },
    !c.cache.isEmpty)

end TileCache

/-! ## What a message is about -/

/-- A closed rectangle with these edges. -/
def closedRectangle (x y width height : Int) : Set (Int × Int) :=
  Set.Icc (x, y) (x + width, y + height)

/-- The area of the message has a point of the tile, for this view. -/
def Invalidation.Touches (m : Invalidation) (canonicalViewId : Int) (desc : TileDesc) : Prop :=
  (m.part = -1 ∨ desc.part = m.part) ∧ desc.mode = m.mode ∧
    desc.canonicalViewId = canonicalViewId ∧
    (closedRectangle m.x m.y m.width m.height ∩
      closedRectangle desc.tilePosX desc.tilePosY desc.tileWidth desc.tileHeight).Nonempty

/-- The right and bottom edges of the tile are `int`s, and so are those of the area unless the tile
starts left of it, or above. -/
def Invalidation.Fits (m : Invalidation) (desc : TileDesc) : Prop :=
  desc.tilePosX + desc.tileWidth ≤ intMax ∧ desc.tilePosY + desc.tileHeight ≤ intMax ∧
    (m.x + m.width ≤ intMax ∨ desc.tilePosX ≤ m.x) ∧
    (m.y + m.height ≤ intMax ∨ desc.tilePosY ≤ m.y)

theorem closedRectangle_meet {x y width height x' y' width' height' : Int} :
    (closedRectangle x y width height ∩ closedRectangle x' y' width' height').Nonempty ↔
      max x x' ≤ min (x + width) (x' + width') ∧ max y y' ≤ min (y + height) (y' + height') := by
  rw [closedRectangle, closedRectangle, Set.Icc_inter_Icc, Set.nonempty_Icc]
  rfl

/-- The numbers of an accepted message. -/
structure Invalidation.Bounded (m : Invalidation) : Prop where
  x : 0 ≤ m.x ∧ m.x ≤ intMax
  y : 0 ≤ m.y ∧ m.y ≤ intMax
  width : 0 ≤ m.width ∧ m.width ≤ intMax
  height : 0 ≤ m.height ∧ m.height ≤ intMax

theorem getNonNegTokenInteger_bounds {token name : Payload} {value : Int}
    (h : getNonNegTokenInteger token name = some value) : 0 ≤ value ∧ value ≤ intMax := by
  obtain ⟨hvalue, hle⟩ := Option.filter_eq_some_iff.mp h
  refine ⟨by simpa using hle, ?_⟩
  rw [getTokenInteger] at hvalue
  split at hvalue
  · obtain ⟨n, -, rfl⟩ := Option.map_eq_some_iff.mp hvalue
    have hlt := (isInt32_toInt32 n).2
    rw [intMax]
    omega
  · cases hvalue

theorem Invalidation.bounded_whole (part mode : Int) (wireId : Nat) :
    (whole part mode wireId).Bounded := by
  constructor <;> simp [whole, intMax]

theorem bounded_of_parseArea {part mode : Int} {x y width height wid : Payload} {m : Invalidation}
    (h : parseArea part mode x y width height wid = some m) : m.Bounded := by
  simp only [parseArea, Option.bind_eq_bind, Option.bind_eq_some_iff] at h
  obtain ⟨x, hx, y, hy, width, hwidth, height, hheight, wireId, -, h⟩ := h
  cases h
  exact ⟨getNonNegTokenInteger_bounds hx, getNonNegTokenInteger_bounds hy,
    getNonNegTokenInteger_bounds hwidth, getNonNegTokenInteger_bounds hheight⟩

theorem bounded_of_parseInvalidated {tokens : List Payload} {m : Invalidation}
    (h : parseInvalidated tokens = some m) : m.Bounded := by
  have hwhole {part mode : Int} {wid : Payload}
      (h : (getWireId wid).map (Invalidation.whole part mode) = some m) : m.Bounded := by
    obtain ⟨wireId, -, rfl⟩ := Option.map_eq_some_iff.mp h
    exact Invalidation.bounded_whole part mode wireId
  match tokens, h with
  | [empty], h =>
      have heq := Option.some.inj (Option.ite_none_right_eq_some.mp h).2
      exact heq ▸ Invalidation.bounded_whole (-1) 0 0
  | [empty, wid], h => exact hwhole (Option.ite_none_right_eq_some.mp h).2
  | [empty, part, wid], h =>
      obtain ⟨part, -, h⟩ := Option.bind_eq_some_iff.mp (Option.ite_none_right_eq_some.mp h).2
      exact hwhole h
  | [empty, part, mode, wid], h =>
      obtain ⟨part, -, h⟩ := Option.bind_eq_some_iff.mp (Option.ite_none_right_eq_some.mp h).2
      obtain ⟨mode, -, h⟩ := Option.bind_eq_some_iff.mp h
      exact hwhole h
  | [part, x, y, width, height, wid], h =>
      obtain ⟨part, -, h⟩ := Option.bind_eq_some_iff.mp h
      exact bounded_of_parseArea h
  | [part, mode, x, y, width, height, wid], h =>
      obtain ⟨part, -, h⟩ := Option.bind_eq_some_iff.mp h
      obtain ⟨mode, -, h⟩ := Option.bind_eq_some_iff.mp h
      exact bounded_of_parseArea h

theorem bounded_of_parse {tiles : Payload} {m : Invalidation}
    (h : parseInvalidateMsg tiles = some m) : m.Bounded := by
  rw [parseInvalidateMsg] at h
  cases htokens : tokenize tiles ' ' with
  | nil =>
      rw [htokens] at h
      cases h
  | cons first rest =>
      rw [htokens] at h
      exact bounded_of_parseInvalidated (Option.ite_none_right_eq_some.mp h).2

/-! ## The edges -/

theorem toInt32_of_le {n : Int} (hlo : 0 ≤ n) (hhi : n ≤ intMax) : toInt32 n = n := by
  apply toInt32_of_isInt32
  simp only [IsInt32, intMax] at hhi ⊢
  omega

/-- A sum of two numbers from zero on that exceeds the maximum is negative as an `int`. -/
theorem toInt32_neg {n : Int} (hlo : intMax < n) (hhi : n ≤ 2 * intMax) : toInt32 n < 0 := by
  simp only [intMax] at hlo hhi
  have hmod : n % 2 ^ 32 = n := by omega
  have hlarge : ¬ n < (2 ^ 32 + 1) / 2 := by omega
  rw [toInt32, Int.bmod_def]
  change (if n % 2 ^ 32 < (2 ^ 32 + 1) / 2 then n % 2 ^ 32 else n % 2 ^ 32 - 2 ^ 32) < 0
  rw [hmod, if_neg hlarge]
  omega

/-- One dimension of the two rectangles, as the code compares it. -/
theorem edges_meet_iff {x width x' width' : Int} (hx : 0 ≤ x ∧ x ≤ intMax)
    (hwidth : 0 ≤ width) (hx' : 0 ≤ x' ∧ x' ≤ intMax) (hwidth' : 0 ≤ width' ∧ width' ≤ intMax) :
    max x x' ≤ min (toInt32 (x + if x + width ≤ intMax then width else 0))
        (toInt32 (x' + width')) ↔
      max x x' ≤ min (x + width) (x' + width') ∧ x' + width' ≤ intMax ∧
        (x + width ≤ intMax ∨ x' ≤ x) := by
  by_cases htile : x' + width' ≤ intMax
  · rw [toInt32_of_le (by omega) htile]
    by_cases harea : x + width ≤ intMax
    · rw [if_pos harea, toInt32_of_le (by omega) harea]
      omega
    · rw [if_neg harea, Int.add_zero, toInt32_of_le hx.1 hx.2]
      omega
  · have hneg := toInt32_neg (not_le.mp htile) (by omega)
    omega

theorem Rectangle.getWidth_ofExtent {x y width height : Int} (hwidth : 0 ≤ width) :
    (ofExtent x y width height).getWidth = if x + width ≤ intMax then width else 0 := by
  by_cases harea : x + width ≤ intMax
  · simp only [getWidth, ofExtent, if_pos harea]
    rw [if_pos (by omega)]
    omega
  · simp only [getWidth, ofExtent, if_neg harea]
    rw [if_pos (by omega)]
    omega

theorem Rectangle.getHeight_ofExtent {x y width height : Int} (hheight : 0 ≤ height) :
    (ofExtent x y width height).getHeight = if y + height ≤ intMax then height else 0 := by
  by_cases harea : y + height ≤ intMax
  · simp only [getHeight, ofExtent, if_pos harea]
    rw [if_pos (by omega)]
    omega
  · simp only [getHeight, ofExtent, if_neg harea]
    rw [if_pos (by omega)]
    omega

/-! ## Exactness -/

/-- The numbers of a description that the constructor accepts. -/
structure Placed (desc : TileDesc) : Prop where
  valid : desc.isValid = true
  tilePosX : IsInt32 desc.tilePosX
  tilePosY : IsInt32 desc.tilePosY
  tileWidth : IsInt32 desc.tileWidth
  tileHeight : IsInt32 desc.tileHeight

theorem intersectsTile_iff {desc : TileDesc} {part mode x y width height canonicalViewId : Int} :
    intersectsTile desc part mode x y width height canonicalViewId = true ↔
      (part = -1 ∨ desc.part = part) ∧ mode = desc.mode ∧ canonicalViewId = desc.canonicalViewId ∧
      max x desc.tilePosX ≤ min (toInt32 (x + width)) (toInt32 (desc.tilePosX + desc.tileWidth)) ∧
      max y desc.tilePosY ≤
        min (toInt32 (y + height)) (toInt32 (desc.tilePosY + desc.tileHeight)) := by
  have hpart : ¬ (part ≠ -1 ∧ desc.part ≠ part) ↔ part = -1 ∨ desc.part = part := by omega
  rw [← hpart, intersectsTile]
  by_cases hother : part ≠ -1 ∧ desc.part ≠ part
  · rw [if_pos hother]
    exact iff_of_false (by decide) fun h => h.1 hother
  · rw [if_neg hother]
    by_cases hmode : mode = desc.mode
    · by_cases hview : canonicalViewId = desc.canonicalViewId
      · simp [hother, hmode, hview]
      · simp [hmode, hview]
    · simp [hmode]

/-- A tile is taken for touched if it is and fits. -/
theorem intersects_iff {m : Invalidation} (hm : m.Bounded) {desc : TileDesc} (hdesc : Placed desc)
    (canonicalViewId : Int) :
    m.intersects canonicalViewId desc = true ↔ m.Touches canonicalViewId desc ∧ m.Fits desc := by
  have hvalid := hdesc.valid
  have hx := hdesc.tilePosX.2
  have hy := hdesc.tilePosY.2
  have hwidth := hdesc.tileWidth.2
  have hheight := hdesc.tileHeight.2
  simp only [TileDesc.isValid, Bool.and_eq_true, decide_eq_true_eq] at hvalid
  have hx' : 0 ≤ desc.tilePosX ∧ desc.tilePosX ≤ intMax := by rw [intMax]; omega
  have hy' : 0 ≤ desc.tilePosY ∧ desc.tilePosY ≤ intMax := by rw [intMax]; omega
  have hwidth' : 0 ≤ desc.tileWidth ∧ desc.tileWidth ≤ intMax := by rw [intMax]; omega
  have hheight' : 0 ≤ desc.tileHeight ∧ desc.tileHeight ≤ intMax := by rw [intMax]; omega
  have hhorizontal := edges_meet_iff hm.x hm.width.1 hx' hwidth'
  have hvertical := edges_meet_iff hm.y hm.height.1 hy' hheight'
  rw [Invalidation.intersects, intersectsTile_iff, Invalidation.rectangle,
    Rectangle.getWidth_ofExtent hm.width.1, Rectangle.getHeight_ofExtent hm.height.1,
    Invalidation.Touches, closedRectangle_meet, Invalidation.Fits]
  change (m.part = -1 ∨ desc.part = m.part) ∧ m.mode = desc.mode ∧
    canonicalViewId = desc.canonicalViewId ∧
    max m.x desc.tilePosX ≤ min (toInt32 (m.x + _)) _ ∧
    max m.y desc.tilePosY ≤ min (toInt32 (m.y + _)) _ ↔ _
  rw [hhorizontal, hvertical, eq_comm (a := m.mode), eq_comm (a := canonicalViewId)]
  constructor
  · rintro ⟨hpart, hmode, hview, ⟨hx, htile, harea⟩, hy, htile', harea'⟩
    exact ⟨⟨hpart, hmode, hview, hx, hy⟩, htile, htile', harea, harea'⟩
  · rintro ⟨⟨hpart, hmode, hview, hx, hy⟩, htile, htile', harea, harea'⟩
    exact ⟨hpart, hmode, hview, ⟨hx, htile, harea⟩, hy, htile', harea'⟩

/-- The tiles that a message marks as invalid. -/
theorem invalidateTiles_getElem? {σ : Type} {c : TileCache σ} {i : Nat} {desc : TileDesc}
    {tile : TileData} (h : c.cache[i]? = some (desc, tile)) (m : Invalidation)
    (canonicalViewId : Int) :
    (c.invalidateTiles m canonicalViewId).1.cache[i]? =
      some (desc, if m.intersects canonicalViewId desc then tile.invalidate else tile) := by
  rw [TileCache.invalidateTiles, List.getElem?_map, h, Option.map_some]
  cases m.intersects canonicalViewId desc <;> rfl

/-- The comparison of a tile with the area of a message is exact just where the edges of a touched
tile fit, and the tiles that it takes for touched are those that become invalid. -/
theorem invalidation_exact_iff {tiles : Payload} {m : Invalidation}
    (hparse : parseInvalidateMsg tiles = some m) {desc : TileDesc} (hdesc : Placed desc)
    (canonicalViewId : Int) :
    ((m.intersects canonicalViewId desc = true ↔ m.Touches canonicalViewId desc) ↔
        (m.Touches canonicalViewId desc → m.Fits desc)) ∧
      ∀ {σ : Type} (c : TileCache σ) (i : Nat) (tile : TileData),
        c.cache[i]? = some (desc, tile) →
        (c.invalidateTiles m canonicalViewId).1.cache[i]? =
          some (desc, if m.intersects canonicalViewId desc then tile.invalidate else tile) := by
  refine ⟨?_, fun c i tile h => invalidateTiles_getElem? h m canonicalViewId⟩
  rw [intersects_iff (bounded_of_parse hparse) hdesc]
  exact and_iff_left_iff_imp

/-- The right edge of a tile in the middle of a document. -/
theorem invalidation_exact_tile :
    ((Invalidation.intersects ⟨0, 0, 1000, 0, 500, 500, 7⟩ 0
          { TileDesc.parseDefaults with
            width := 256, height := 256, tilePosX := 0, tileWidth := 1000, tileHeight := 1000 } =
          true ↔
        Invalidation.Touches ⟨0, 0, 1000, 0, 500, 500, 7⟩ 0
          { TileDesc.parseDefaults with
            width := 256, height := 256, tilePosX := 0, tileWidth := 1000, tileHeight := 1000 })) := by
  have hparse : parseInvalidateMsg
      "invalidatetiles: part=0 x=1000 y=0 width=500 height=500 wid=7".toList =
      some ⟨0, 0, 1000, 0, 500, 500, 7⟩ := by decide +kernel
  have hplaced : Placed { TileDesc.parseDefaults with
      width := 256, height := 256, tilePosX := 0, tileWidth := 1000, tileHeight := 1000 } := by
    constructor <;> decide
  have hexact := (invalidation_exact_iff hparse hplaced 0).1
  exact hexact.mpr fun _ => by constructor <;> decide

/-- The rightmost tile, whose right edge exceeds an `int`, and an area inside it. -/
theorem touched_tile_missed : ¬ ∀ (tiles : Payload) (m : Invalidation) (desc : TileDesc)
    (canonicalViewId : Int), parseInvalidateMsg tiles = some m → Placed desc →
    (m.intersects canonicalViewId desc = true ↔ m.Touches canonicalViewId desc) := by
  intro h
  have hexact := h "invalidatetiles: part=0 x=2147483000 y=0 width=100 height=100 wid=7".toList
    ⟨0, 0, 2147483000, 0, 100, 100, 7⟩
    { TileDesc.parseDefaults with
      width := 256, height := 256, tilePosX := 2147482800, tileWidth := 3840, tileHeight := 3840 }
    0 (by decide +kernel) (by constructor <;> decide)
  have htouches : Invalidation.Touches ⟨0, 0, 2147483000, 0, 100, 100, 7⟩ 0
      { TileDesc.parseDefaults with
        width := 256, height := 256, tilePosX := 2147482800, tileWidth := 3840,
        tileHeight := 3840 } := by
    rw [Invalidation.Touches, closedRectangle_meet]
    decide
  exact absurd (hexact.mpr htouches) (by decide)

end CoolOnline.Wsd
