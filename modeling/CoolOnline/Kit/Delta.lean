import CoolOnline.Kit.DeltaSimd
import Mathlib.Algebra.Order.Ring.Int

/-! # Tile deltas

`DeltaGenerator::makeDelta` of `kit/Delta.hpp`: the byte string of row copies and pixel runs
that turns the previous pixmap of a tile into the current one.
-/

namespace CoolOnline.Delta

/-- `LibreOfficeKitTileMode`. -/
inductive TileMode
  | rgba
  | bgra
deriving DecidableEq, Repr

/-- `std::swap(dest[j], dest[j+2])` for every pixel of a byte string. -/
def swapRedBlue : List UInt8 → List UInt8
  | b0 :: b1 :: b2 :: b3 :: rest => b2 :: b1 :: b0 :: b3 :: swapRedBlue rest
  | rest => rest

/-- `copy_row`. -/
def copyRow (mode : TileMode) (srcBytes : List UInt8) : List UInt8 :=
  match mode with
  | .rgba => srcBytes
  | .bgra => swapRedBlue srcBytes

/-- The bytes `copy_row` writes for a run of pixels. -/
def rowBytes (mode : TileMode) (pixels : List Pixel) : List UInt8 :=
  copyRow mode (pixels.flatMap Pixel.bytes)

/-- A tile of `width` by `height` pixels, within what `createDelta` accepts. -/
structure Pixmap (width height : Nat) where
  rows : List (List Pixel)
  rows_length : rows.length = height
  row_length : ∀ row ∈ rows, row.length = width
deriving DecidableEq

/-- `DeltaData`: the compressed rows of a pixmap. -/
structure DeltaData where
  width : Nat
  height : Nat
  rows : List DeltaBitmapRow

def DeltaData.ofPixmap (hasAVX2 : Bool) {width height : Nat} (pixmap : Pixmap width height) :
    DeltaData :=
  ⟨width, height, pixmap.rows.map (initRow hasAVX2)⟩

def DeltaData.getRow (data : DeltaData) (y : Nat) : DeltaBitmapRow := data.rows.getD y ⟨[], []⟩

/-! ## Runs of one row -/

/-- The loop over equal pixels of `diffRowTo`; `left` is `width - (same + x)`. -/
def sameLoop : Nat → PixIterator → PixIterator → Nat × PixIterator × PixIterator
  | 0, oldPixels, curPixels => (0, oldPixels, curPixels)
  | left + 1, oldPixels, curPixels =>
      if oldPixels.identical curPixels then
        let later := sameLoop left oldPixels.next curPixels.next
        (later.1 + 1, later.2)
      else (0, oldPixels, curPixels)

/-- The loop that fills `scratch` in `diffRowTo`; `left` is `width - (diff + x)`. -/
def diffLoop : Nat → Nat → PixIterator → PixIterator →
    List Pixel × PixIterator × PixIterator
  | 0, _, oldPixels, curPixels => ([], oldPixels, curPixels)
  | left + 1, diff, oldPixels, curPixels =>
      if (!oldPixels.identical curPixels || diff < 3) && diff < 254 then
        let later := diffLoop left (diff + 1) oldPixels.next curPixels.next
        (curPixels.lastPix :: later.1, later.2)
      else ([], oldPixels, curPixels)

/-- One `'d'` operation as `diffRowTo` pushes it. -/
def pushRun (mode : TileMode) (curY x : Nat) (scratch : List Pixel) (output : List UInt8) :
    List UInt8 :=
  if scratch.length > 0 then
    output ++ [100, UInt8.ofNat curY, UInt8.ofNat x, UInt8.ofNat scratch.length] ++
      rowBytes mode scratch
  else output

/-- The outer loop of `diffRowTo`; every round advances `x`. -/
def diffRowLoop (mode : TileMode) (width curY : Nat) :
    Nat → Nat → PixIterator → PixIterator → List UInt8 → List UInt8
  | 0, _, _, _, output => output
  | rounds + 1, x, oldPixels, curPixels, output =>
      if x < width then
        let same := sameLoop (width - x) oldPixels curPixels
        let diff := diffLoop (width - (x + same.1)) 0 same.2.1 same.2.2
        diffRowLoop mode width curY rounds (x + same.1 + diff.1.length) diff.2.1 diff.2.2
          (pushRun mode curY (x + same.1) diff.1 output)
      else output

def DeltaBitmapRow.diffRowTo (row curRow : DeltaBitmapRow) (width curY : Nat)
    (output : List UInt8) (mode : TileMode) : List UInt8 :=
  diffRowLoop mode width curY width 0 (PixIterator.ofRow row) (PixIterator.ofRow curRow) output

/-! ## The delta of a tile -/

/-- The locals of the row loop of `makeDelta`. -/
structure MakeState where
  lastMatchOffset : Nat
  lastCopy : Nat
  output : List UInt8
deriving DecidableEq, Repr

def MakeState.byte (s : MakeState) (i : Nat) : Nat := (s.output.getD i 0).toNat

/-- `size_t` arithmetic wraps at 64 bits. -/
def sizeT (n : Nat) : Nat := n % 2 ^ 64

/-- `(y + lastMatchOffset + yn) % prev.getHeight()`. -/
def matchRow (height y lastMatchOffset yn : Nat) : Nat :=
  sizeT (y + lastMatchOffset + yn) % height

/-- The hunt for a previous row that is identical to row `y`. -/
def findMatch (prev cur : DeltaData) (y lastMatchOffset : Nat) : List Nat → Option Nat
  | [] => none
  | yn :: later =>
      let row := matchRow prev.height y lastMatchOffset yn
      if (prev.getRow row).identical (cur.getRow y) then some row
      else findMatch prev cur y lastMatchOffset later

/-- Whether the last copy operation can be extended by row `match_` to row `y`. -/
def MakeState.canExtend (s : MakeState) (height match_ y : Nat) : Bool :=
  let cnt := s.byte s.lastCopy
  s.lastCopy > 0 && s.byte (s.lastCopy + 1) + cnt == match_ &&
    s.byte (s.lastCopy + 2) + cnt == y && s.byte (s.lastCopy + 1) + cnt + 1 < height

def MakeState.pushCopy (s : MakeState) (height match_ y : Nat) : MakeState :=
  if s.canExtend height match_ y then
    { s with output := s.output.set s.lastCopy (s.output.getD s.lastCopy 0 + 1) }
  else
    { lastMatchOffset := sizeT (match_ + 2 ^ 64 - y)
      lastCopy := s.output.length + 1
      output := s.output ++ [99, 1, UInt8.ofNat match_, UInt8.ofNat y] }

def makeRow (prev cur : DeltaData) (mode : TileMode) (s : MakeState) (y : Nat) : MakeState :=
  if (prev.getRow y).identical (cur.getRow y) then s
  else
    match findMatch prev cur y s.lastMatchOffset (List.range prev.height) with
    | some match_ => s.pushCopy prev.height match_ y
    | none =>
        { s with
          output := (prev.getRow y).diffRowTo (cur.getRow y) prev.width y s.output mode }

/-- The vector `output` after the row loop of `makeDelta`. -/
def makeRows (prev cur : DeltaData) (mode : TileMode) : List UInt8 :=
  ((List.range prev.height).foldl (makeRow prev cur mode) ⟨0, 0, []⟩).output

/-- The bytes `makeDelta` hands to the compressor: none for an unchanged tile. -/
def makeDeltaBytes (prev cur : DeltaData) (mode : TileMode) : List UInt8 :=
  let output := makeRows prev cur mode
  if output = [] then [] else output ++ [116]

/-- `makeDelta`: the bytes appended to `outStream`, or `none` when it returns false. -/
def makeDelta (compress : List UInt8 → Option (List UInt8)) (prev cur : DeltaData)
    (mode : TileMode) : Option (List UInt8) :=
  if prev.width ≠ cur.width ∨ prev.height ≠ cur.height then none
  else
    let output := makeRows prev cur mode
    if output = [] then some [68]
    else (compress (output ++ [116])).map fun compressed => 68 :: compressed

end CoolOnline.Delta
