import CoolOnline.Library.ListWrite

/-! # Applying a delta in the browser

`applyDeltaChunk` and `unrle` of `browser/src/layer/tile/CanvasTileUtils.ts`. The buffers are the typed
arrays as lists of bytes: a read past the end of `oldData` is stored as 0 and a write past
the end of `imgData` is dropped. An operation whose header is cut short has no meaning here.
-/

namespace CoolOnline.Browser

open ListWrite

/-- An executed operation and the numbers it read from the delta. -/
inductive DeltaOp
  | copyRow (count srcRow destRow : Nat)
  | newRun (destRow destCol span : Nat)
deriving DecidableEq, Repr

/-- Reads only rows inside the tile and writes only pixels inside it. -/
def DeltaOp.InBounds (width height : Nat) : DeltaOp → Prop
  | .copyRow count srcRow destRow => srcRow + count ≤ height ∧ destRow + count ≤ height
  | .newRun destRow destCol span => destRow < height ∧ destCol + span ≤ width

instance (width height : Nat) : (op : DeltaOp) → Decidable (op.InBounds width height)
  | .copyRow _ _ _ => inferInstanceAs (Decidable (_ ∧ _))
  | .newRun _ _ _ => inferInstanceAs (Decidable (_ ∧ _))

/-- The locals of the loop, with the operations executed so far. -/
structure ChunkState where
  imgData : List UInt8
  i : Nat
  stop : Bool
  ops : List DeltaOp
deriving DecidableEq, Repr

def copyRows (oldData : List UInt8) (width srcRow destRow : Nat) (count : Nat)
    (imgData : List UInt8) : List UInt8 :=
  (List.range count).foldl
    (fun img cnt =>
      writeFrom img ((destRow + cnt) * (width * 4))
        ((List.range (width * 4)).map fun j => oldData.getD ((srcRow + cnt) * (width * 4) + j) 0))
    imgData

/-- One turn of the loop: the `switch` on `delta[i]`. -/
def chunkStep (delta oldData : List UInt8) (width : Nat) (s : ChunkState) : Option ChunkState :=
  match delta[s.i]? with
  | none => none
  | some 99 =>
      match delta[s.i + 1]?, delta[s.i + 2]?, delta[s.i + 3]? with
      | some count, some srcRow, some destRow =>
          some { s with
            imgData := copyRows oldData width srcRow.toNat destRow.toNat count.toNat s.imgData
            i := s.i + 4
            ops := s.ops ++ [.copyRow count.toNat srcRow.toNat destRow.toNat] }
      | _, _, _ => none
  | some 100 =>
      match delta[s.i + 1]?, delta[s.i + 2]?, delta[s.i + 3]? with
      | some destRow, some destCol, some span =>
          some { s with
            imgData := writeFrom s.imgData (destRow.toNat * (width * 4) + destCol.toNat * 4)
              ((List.range (span.toNat * 4)).map fun j => delta.getD (s.i + 4 + j) 0)
            i := s.i + 4 + span.toNat * 4
            ops := s.ops ++ [.newRun destRow.toNat destCol.toNat span.toNat] }
      | _, _, _ => none
  | some 116 => some { s with stop := true, i := s.i + 1 }
  | some _ => some { s with i := delta.length }

/-- `for (let stop = false; i < delta.length && !stop; )`; every turn advances `i`. -/
def deltaLoop (delta oldData : List UInt8) (width : Nat) : Nat → ChunkState → Option ChunkState
  | 0, _ => none
  | turns + 1, s =>
      if s.i < delta.length ∧ s.stop = false then
        (chunkStep delta oldData width s).bind (deltaLoop delta oldData width turns)
      else some s

/-- The final locals; `i` is the length the function returns. -/
def applyDeltaChunk (imgData delta oldData : List UInt8) (width : Nat) : Option ChunkState :=
  deltaLoop delta oldData width (delta.length + 1) ⟨imgData, 0, false, []⟩

/-! ## Decoding a keyframe -/

/-- The locals of the inner loop of `unrle`. -/
structure UnrleState where
  output : List UInt8
  lastPixel : List UInt8
  lastMask : Nat
  bitToCheck : Nat
  rleMaskOffset : Nat
  pixOffset : Nat
  pixSrc : Nat
deriving DecidableEq, Repr

/-- Every eight columns the next byte of the mask is read. -/
def UnrleState.loadMask (data : List UInt8) (s : UnrleState) : Option UnrleState :=
  if s.bitToCheck > 128 then
    (data[s.rleMaskOffset]?).map fun byte =>
      { s with bitToCheck := 1, lastMask := byte.toNat, rleMaskOffset := s.rleMaskOffset + 1 }
  else some s

/-- A clear bit takes the next pixel. -/
def UnrleState.takePixel (data : List UInt8) (s : UnrleState) : Option UnrleState :=
  if s.lastMask &&& s.bitToCheck = 0 then
    match data[s.pixSrc]?, data[s.pixSrc + 1]?, data[s.pixSrc + 2]?, data[s.pixSrc + 3]? with
    | some b0, some b1, some b2, some b3 =>
        some { s with lastPixel := [b0, b1, b2, b3], pixSrc := s.pixSrc + 4 }
    | _, _, _, _ => none
  else some s

/-- `output.set`, which throws if the pixel does not fit. -/
def UnrleState.setPixel (s : UnrleState) : Option UnrleState :=
  if s.pixOffset + 4 ≤ s.output.length then
    some { s with
      bitToCheck := s.bitToCheck <<< 1
      output := writeFrom s.output s.pixOffset s.lastPixel
      pixOffset := s.pixOffset + 4 }
  else none

/-- The inner loop, for a number of columns. -/
def unrleColumns (data : List UInt8) : Nat → UnrleState → Option UnrleState
  | 0, s => some s
  | columns + 1, s =>
      (s.loadMask data).bind fun s => (s.takePixel data).bind fun s =>
        s.setPixel.bind (unrleColumns data columns)

/-- The rows from `y` on: the offset after them and the output. A read past the end of `data`
has no meaning here. -/
def unrleRows (data : List UInt8) (width outputOffset : Nat) :
    Nat → Nat → Nat → List UInt8 → Option (Nat × List UInt8)
  | 0, _, offset, output => some (offset, output)
  | rows + 1, y, offset, output =>
      match data[offset]?, data[offset + 1]? with
      | some low, some high =>
          let rleSize := low.toNat + high.toNat * 256
          let rleMask := offset + 2
          let pixels := rleMask + 256 / 8
          (unrleColumns data width
            ⟨output, [0, 0, 0, 0], 0, 256, rleMask, y * width * 4 + outputOffset, pixels⟩).bind
            fun s => unrleRows data width outputOffset rows (y + 1) (pixels + rleSize * 4) s.output
      | _, _ => none

def unrle (data : List UInt8) (width height : Nat) (output : List UInt8) (outputOffset : Nat) :
    Option (Nat × List UInt8) :=
  unrleRows data width outputOffset height 0 0 output

end CoolOnline.Browser
