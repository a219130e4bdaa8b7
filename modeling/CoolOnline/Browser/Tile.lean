import CoolOnline.Library.Text
import Mathlib.Algebra.Order.Ring.Int
import Mathlib.Algebra.Order.Ring.Rat

/-! # Tiles in the browser

`TileCoordData` and `Tile` of `browser/src/app/TilesMiddleware.ts`, with the raw deltas of
`CanvasTileUtils.ts`. The counters of a tile that only the debugging overlay shows are left out.
-/

namespace CoolOnline.Browser

open Text

/-- The keys of the maps. -/
abbrev Key := List Char

structure TileCoordData where
  x : Int
  y : Int
  z : Int
  part : Int
  mode : Int
deriving DecidableEq

namespace TileCoordData

def key (c : TileCoordData) : Key :=
  [':'].intercalate [decimal c.x, decimal c.y, decimal c.z, decimal c.part, decimal c.mode]

/-- `toString`, for messages, under which bitmaps are cached on the main thread, too. -/
def text (c : TileCoordData) : Key :=
  "\x7b left : ".toList ++ decimal c.x ++ ", top : ".toList ++ decimal c.y ++
    ", z : ".toList ++ decimal c.z ++ ", part : ".toList ++ decimal c.part ++
    ", mode : ".toList ++ decimal c.mode ++ " \x7d".toList

theorem key_injective : Function.Injective key := by
  intro c c' heq
  have hfield (n : Int) : IsField ':' (decimal n) :=
    ⟨decimal_ne_nil n, fun hmem => by rcases mem_decimal hmem with h | h <;> simp_all⟩
  have hfields (c : TileCoordData) : fields ':' c.key =
      [decimal c.x, decimal c.y, decimal c.z, decimal c.part, decimal c.mode] :=
    fields_intercalate (by simp [hfield])
  have hnumbers := (hfields c).symm.trans ((congrArg (fields ':') heq).trans (hfields c'))
  have hinj {n n' : Int} (h : decimal n = decimal n') : n = n' := by
    have := leadingInt_decimal n
    rw [h, leadingInt_decimal] at this
    exact (Option.some.inj this).symm
  simp only [List.cons.injEq, and_true] at hnumbers
  obtain ⟨hx, hy, hz, hpart, hmode⟩ := hnumbers
  cases c
  cases c'
  rw [TileCoordData.mk.injEq]
  exact ⟨hinj hx, hinj hy, hinj hz, hinj hpart, hinj hmode⟩

theorem key_ne_text (c c' : TileCoordData) : c.key ≠ c'.text := by
  intro heq
  obtain ⟨first, rest, hfirst⟩ := List.exists_cons_of_ne_nil (decimal_ne_nil c.x)
  have hhead : c.key.head? = some first := by
    simp [key, List.intercalate, hfirst]
  have hbrace : c'.text.head? = some '\x7b' := rfl
  have hmem : '\x7b' ∈ decimal c.x := by
    rw [heq, hbrace] at hhead
    rw [hfirst, ← Option.some.inj hhead]
    exact List.mem_cons_self
  rcases mem_decimal hmem with h | h
  · exact absurd h (by decide)
  · exact absurd h (by decide)

end TileCoordData

/-- `RawDelta`: compressed data, under an id of its tile. -/
structure RawDelta where
  delta : List UInt8
  id : Nat
  isKeyframe : Bool
deriving DecidableEq

/-- `Tile`, with bitmaps in `ι`. -/
structure Tile (ι : Type) where
  coords : TileCoordData
  distanceFromView : Rat
  image : Option ι
  rawDeltas : List RawDelta
  wireId : Nat
  invalidFrom : Nat
  deltaId : Nat
  lastPendingId : Nat
  decompressedId : Nat

namespace Tile

variable {ι : Type} (t : Tile ι)

def new (coords : TileCoordData) : Tile ι := ⟨coords, 0, none, [], 0, 0, 0, 0, 0⟩

def hasKeyframe : Bool := t.rawDeltas ≠ []

def hasContent : Bool := t.image.isSome || t.hasKeyframe

/-- The newest raw delta is not decompressed yet. -/
def needsRehydration : Bool :=
  match t.rawDeltas.getLast? with
  | none => false
  | some last => t.lastPendingId ≠ last.id

def isReady : Bool := t.decompressedId = t.lastPendingId

def forceKeyframe (wireId : Nat) : Tile ι := { t with wireId := wireId, invalidFrom := wireId }

/-- What a message adds. -/
def append (delta : List UInt8) (isKeyframe : Bool) : Tile ι :=
  { t with
    deltaId := t.deltaId + 1
    rawDeltas :=
      if isKeyframe || t.hasKeyframe then t.rawDeltas ++ [⟨delta, t.deltaId + 1, isKeyframe⟩]
      else t.rawDeltas }

/-- The loop down to the last stored keyframe. -/
def keyframeFrom (rawDeltas : List RawDelta) : Nat → Nat
  | 0 => 0
  | i + 1 =>
      if rawDeltas[i + 1]?.any RawDelta.isKeyframe then i + 1 else keyframeFrom rawDeltas i

/-- The index of the last stored keyframe. -/
def lastKeyframe (rawDeltas : List RawDelta) : Nat := keyframeFrom rawDeltas (rawDeltas.length - 1)

/-- Where rehydration starts: after what is pending already, if that is in the list and after the
last keyframe. -/
def rehydrateFrom (rawDeltas : List RawDelta) (lastPendingId : Nat) : Nat :=
  let firstDelta := lastKeyframe rawDeltas
  if rawDeltas[firstDelta]?.any fun d => d.id < lastPendingId then
    match rawDeltas.findIdx? fun d => d.id = lastPendingId with
    | some continued => continued + 1
    | none => firstDelta
  else firstDelta

/-- Old raw deltas are discarded. -/
def trim : Tile ι := { t with rawDeltas := t.rawDeltas.drop (lastKeyframe t.rawDeltas) }

def deltaSize : Nat := (t.rawDeltas.map fun d => d.delta.length).sum

end Tile

/-- What is handed over for decompression: a slice of the raw deltas of a tile, with the ids of its
first and last. The keyframe and deltas that it continues, `base`, are not part of it. -/
structure PendingDelta where
  coords : TileCoordData
  rawDelta : List RawDelta
  isKeyframe : Bool
  wireMessage : Bool
  ids : Nat × Nat
  base : List RawDelta
deriving DecidableEq

/-- The slice that rehydration hands over. -/
def slice (coords : TileCoordData) (rawDeltas : List RawDelta) (lastPendingId : Nat)
    (wireMessage : Bool) : Option PendingDelta :=
  let firstDelta := Tile.rehydrateFrom rawDeltas lastPendingId
  match rawDeltas.drop firstDelta, rawDeltas.getLast? with
  | first :: rest, some last =>
      some
        { coords := coords
          rawDelta := first :: rest
          isKeyframe := first.isKeyframe
          wireMessage := wireMessage
          ids := (first.id, last.id)
          base := (rawDeltas.take firstDelta).drop (Tile.lastKeyframe rawDeltas) }
  | _, _ => none

/-- What the decompressed data does to an image: a keyframe gives a new one, a delta changes the one
before. -/
structure Codec (ι : Type) where
  unrle : List UInt8 → ι
  update : ι → List UInt8 → ι

namespace Codec

variable {ι : Type} (codec : Codec ι)

/-- The image of a keyframe with the deltas after it. -/
def image : List (List UInt8) → Option ι
  | [] => none
  | keyframe :: deltas => some (deltas.foldl codec.update (codec.unrle keyframe))

/-- The image of raw deltas that start at a keyframe. -/
def imageOf (rawDeltas : List RawDelta) : Option ι := codec.image (rawDeltas.map RawDelta.delta)

/-- What a slice makes of the image that there is; without one, a delta has nothing to change. -/
def decompress (image : Option ι) (x : PendingDelta) : Option ι :=
  if x.isKeyframe then codec.imageOf x.rawDelta
  else image.map fun image => (x.rawDelta.map RawDelta.delta).foldl codec.update image

theorem imageOf_append {base : List RawDelta} (h : base ≠ []) (rawDeltas : List RawDelta) :
    codec.imageOf (base ++ rawDeltas) = (codec.imageOf base).map fun image =>
      (rawDeltas.map RawDelta.delta).foldl codec.update image := by
  cases base with
  | nil => exact absurd rfl h
  | cons keyframe deltas => simp [imageOf, image]

/-- A slice gives the image of what it continues with the slice after it. -/
theorem decompress_eq {x : PendingDelta} {found : Option ι} (hkey : x.isKeyframe = true ↔ x.base = [])
    (hfound : x.isKeyframe = false → found = codec.imageOf x.base) :
    codec.decompress found x = codec.imageOf (x.base ++ x.rawDelta) := by
  rw [decompress]
  cases hx : x.isKeyframe with
  | true => rw [hkey.mp hx, if_pos rfl, List.nil_append]
  | false =>
      have hbase : x.base ≠ [] := by
        intro hnil
        rw [hkey.mpr hnil] at hx
        cases hx
      rw [if_neg Bool.false_ne_true, hfound hx, codec.imageOf_append hbase]

theorem imageOf_isSome {rawDeltas : List RawDelta} (h : rawDeltas ≠ []) :
    ∃ image, codec.imageOf rawDeltas = some image := by
  cases rawDeltas with
  | nil => exact absurd rfl h
  | cons keyframe deltas => exact ⟨_, rfl⟩

end Codec

end CoolOnline.Browser
