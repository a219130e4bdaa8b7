import CoolOnline.Kit.DeltaOps
import Mathlib.Data.List.GetD
import Mathlib.Data.Nat.Bitwise

/-! # Keyframes

`DeltaBitmapRow::packForNetwork` of `kit/Delta.hpp`, and that the browser's `unrle` decodes the
packed rows of a pixmap to its pixels.
-/

namespace CoolOnline.Delta

open Browser ListWrite

def PixIterator.getPixel (it : PixIterator) : Pixel := it.lastPix

/-- A 64-bit mask as it lies in memory. -/
def maskBytes (mask : BitVec 64) : List UInt8 :=
  (List.range 8).map fun i => UInt8.ofNat ((mask.toNat >>> (8 * i)) % 2 ^ 8)

namespace DeltaBitmapRow

/-- The size of the compressed row, the masks and the pixels. -/
def packForNetwork (row : DeltaBitmapRow) (mode : TileMode) : List UInt8 :=
  let rleSize := row.rleData.length
  [UInt8.ofNat (rleSize % 2 ^ 8), UInt8.ofNat (rleSize >>> 8)] ++
    row.rleMask.flatMap maskBytes ++ rowBytes mode row.rleData

end DeltaBitmapRow

/-- The packed rows of a pixmap, one after the other. -/
def packRows (hasAVX2 : Bool) (mode : TileMode) (rows : List (List Pixel)) : List UInt8 :=
  rows.flatMap fun row => (initRow hasAVX2 row).packForNetwork mode

/-! ## The masks -/

@[simp] theorem maskBytes_length (mask : BitVec 64) : (maskBytes mask).length = 8 := rfl

theorem initPixRowCpu_masks_length (row : List Pixel) : (initPixRowCpu row).rleMask.length = 4 :=
  maskLoop_masks_length rleMaskUnits row Pixel.transparent []

theorem flatMap_maskBytes_length (masks : List (BitVec 64)) :
    (masks.flatMap maskBytes).length = masks.length * 8 := by
  induction masks with
  | nil => rfl
  | cons mask masks ih =>
      rw [List.flatMap_cons, List.length_append, ih, maskBytes_length, List.length_cons]
      omega

theorem maskBytes_testBit (mask : BitVec 64) {i b : Nat} (hi : i < 8) (hb : b < 8) :
    ((maskBytes mask).getD i 0).toNat.testBit b = mask.getLsbD (8 * i + b) := by
  have hbyte : ((maskBytes mask).getD i 0).toNat = (mask.toNat >>> (8 * i)) % 2 ^ 8 := by
    have hlt : (mask.toNat >>> (8 * i)) % 2 ^ 8 < 256 := Nat.mod_lt _ (by decide)
    have hget : (maskBytes mask).getD i 0 = UInt8.ofNat ((mask.toNat >>> (8 * i)) % 2 ^ 8) := by
      simp [maskBytes, List.getD_eq_getElem?_getD, hi]
    rw [hget, ofNat_toNat_of_lt hlt]
  rw [hbyte, Nat.testBit_mod_two_pow, Nat.testBit_shiftRight, BitVec.testBit_toNat]
  simp [hb]

/-- Byte `k` of the masks holds the bits of eight columns. -/
theorem flatMap_maskBytes_testBit {masks : List (BitVec 64)} {k b : Nat}
    (hk : k < masks.length * 8) (hb : b < 8) :
    ((masks.flatMap maskBytes).getD k 0).toNat.testBit b =
      (masks.getD (k / 8) 0).getLsbD (8 * (k % 8) + b) := by
  induction masks generalizing k with
  | nil => simp at hk
  | cons mask masks ih =>
      by_cases hfirst : k < 8
      · have hdiv : k / 8 = 0 := by omega
        have hmod : k % 8 = k := by omega
        rw [List.flatMap_cons, List.getD_append _ _ _ _ (by simpa using hfirst), hdiv, hmod,
          maskBytes_testBit mask hfirst hb, List.getD_cons_zero]
      · have hdiv : k / 8 = (k - 8) / 8 + 1 := by omega
        have hmod : k % 8 = (k - 8) % 8 := by omega
        have hrest := ih (k := k - 8) (by rw [List.length_cons] at hk; omega)
        rw [List.flatMap_cons, List.getD_append_right _ _ _ _ (by simpa using hfirst),
          maskBytes_length, hrest, hdiv, hmod, List.getD_cons_succ]

/-- The bit of a column is set where it repeats the column before it. -/
theorem masks_testBit (row : List Pixel) {x : Nat} (hx : x < 256) :
    (((initPixRowCpu row).rleMask.flatMap maskBytes).getD (x / 8) 0).toNat.testBit (x % 8) =
      decide (repeats Pixel.transparent row x) := by
  have hlen := initPixRowCpu_masks_length row
  have hm : x / 8 / 8 < 4 := by omega
  have hb : 8 * (x / 8 % 8) + x % 8 < 64 := by omega
  have hbit := initPixRowCpu_bit row (x / 8 / 8) (8 * (x / 8 % 8) + x % 8) hm hb
  have hsplit : 64 * (x / 8 / 8) + (8 * (x / 8 % 8) + x % 8) = x := by omega
  rw [flatMap_maskBytes_testBit (by rw [hlen]; omega) (by omega), hbit, hsplit]

/-! ## Decoding a row -/

/-- The browser has decoded `x` columns of a row whose masks start at `rleMask`. -/
structure Unrles (mode : TileMode) (row : List Pixel) (data : List UInt8) (rleMask : Nat)
    (rest before after : List UInt8) (x : Nat) (s : UnrleState) : Prop where
  lastPixel : s.lastPixel = pixelBytes mode (pixelBefore Pixel.transparent row x)
  pixels : data.drop s.pixSrc =
    rowBytes mode (changes (pixelBefore Pixel.transparent row x) (row.drop x)) ++ rest
  position : s.bitToCheck > 128 ∧ s.rleMaskOffset = rleMask + x / 8 ∧ x % 8 = 0 ∨
    s.bitToCheck = 2 ^ (x % 8) ∧ s.rleMaskOffset = rleMask + x / 8 + 1 ∧
      s.lastMask = (((initPixRowCpu row).rleMask.flatMap maskBytes).getD (x / 8) 0).toNat
  pixOffset : s.pixOffset = before.length + x * 4
  output : ∃ segment, s.output = before ++ (rowBytes mode (row.take x) ++ (segment ++ after)) ∧
    segment.length = (row.length - x) * 4

section Row

variable {mode : TileMode} {row : List Pixel} {data rest before after : List UInt8}
  {rleMask x : Nat} {s : UnrleState}

/-- The masks of a row lie in the data. -/
def MasksAt (row : List Pixel) (data : List UInt8) (rleMask : Nat) : Prop :=
  ∀ k < 32, data[rleMask + k]? =
    some (((initPixRowCpu row).rleMask.flatMap maskBytes).getD k 0)

/-- After reading the mask the bit of the column is at hand. -/
theorem Unrles.loadMask (hwidth : row.length ≤ 256) (hx : x < row.length)
    (hmasks : MasksAt row data rleMask) (h : Unrles mode row data rleMask rest before after x s) :
    ∃ s', s.loadMask data = some s' ∧ s'.bitToCheck = 2 ^ (x % 8) ∧
      Unrles mode row data rleMask rest before after x s' ∧
      s'.rleMaskOffset = rleMask + x / 8 + 1 ∧
      s'.lastMask = (((initPixRowCpu row).rleMask.flatMap maskBytes).getD (x / 8) 0).toNat := by
  rcases h.position with ⟨hbit, hoffset, hzero⟩ | ⟨hbit, hoffset, hmask⟩
  · have hread := hmasks (x / 8) (by omega)
    rw [← hoffset] at hread
    have hone : 1 = 2 ^ (x % 8) := by rw [hzero, Nat.pow_zero]
    refine ⟨{ s with
        bitToCheck := 1
        lastMask := (((initPixRowCpu row).rleMask.flatMap maskBytes).getD (x / 8) 0).toNat
        rleMaskOffset := s.rleMaskOffset + 1 },
      by simp only [UnrleState.loadMask, hbit, if_true, hread, Option.map_some], hone,
      ⟨h.lastPixel, h.pixels, ?_, h.pixOffset, h.output⟩, congrArg (· + 1) hoffset, rfl⟩
    exact Or.inr ⟨hone, congrArg (· + 1) hoffset, rfl⟩
  · have hle : ¬ s.bitToCheck > 128 := by
      have hpow : 2 ^ (x % 8) ≤ 2 ^ 7 := Nat.pow_le_pow_right (by decide) (by omega)
      omega
    exact ⟨s, by simp only [UnrleState.loadMask, hle, if_false], hbit, h, hoffset, hmask⟩

/-- The pixel of the column is the last one or the next one of the data. -/
theorem Unrles.takePixel (hwidth : row.length ≤ 256) (hx : x < row.length)
    (h : Unrles mode row data rleMask rest before after x s)
    (hbit : s.bitToCheck = 2 ^ (x % 8))
    (hmask : s.lastMask = (((initPixRowCpu row).rleMask.flatMap maskBytes).getD (x / 8) 0).toNat) :
    ∃ s', s.takePixel data = some s' ∧ s'.lastPixel = pixelBytes mode row[x] ∧
      data.drop s'.pixSrc = rowBytes mode (changes row[x] (row.drop (x + 1))) ++ rest ∧
      s'.bitToCheck = s.bitToCheck ∧ s'.rleMaskOffset = s.rleMaskOffset ∧
      s'.lastMask = s.lastMask ∧ s'.pixOffset = s.pixOffset ∧ s'.output = s.output := by
  have htest := masks_testBit row (x := x) (by omega)
  have hdrop := changes_drop row x hx (pixelBefore Pixel.transparent row x)
  have hand : s.lastMask &&& s.bitToCheck = 0 ↔
      row[x] ≠ pixelBefore Pixel.transparent row x := by
    rw [hbit, Nat.and_two_pow, hmask, htest]
    by_cases hsame : row[x] = pixelBefore Pixel.transparent row x
    · simp [repeats, hx, hsame]
    · simp [repeats, hx, hsame]
  by_cases hsame : row[x] = pixelBefore Pixel.transparent row x
  · have hne : ¬ (s.lastMask &&& s.bitToCheck = 0) := fun hzero => hand.mp hzero hsame
    refine ⟨s, by simp only [UnrleState.takePixel, hne, if_false], ?_, ?_, rfl, rfl, rfl, rfl,
      rfl⟩
    · rw [hsame]
      exact h.lastPixel
    · rw [h.pixels, hdrop, if_pos hsame, hsame]
  · have hzero := hand.mpr hsame
    have hpixels : data.drop s.pixSrc = pixelBytes mode row[x] ++
        (rowBytes mode (changes row[x] (row.drop (x + 1))) ++ rest) := by
      rw [h.pixels, hdrop, if_neg hsame, rowBytes_eq, rowBytes_eq, List.flatMap_cons,
        List.append_assoc]
    obtain ⟨b0, b1, b2, b3, hbytes⟩ : ∃ b0 b1 b2 b3, pixelBytes mode row[x] = [b0, b1, b2, b3] := by
      cases mode <;> exact ⟨_, _, _, _, rfl⟩
    rw [hbytes] at hpixels
    have hread (k : Nat) := getElem?_of_drop hpixels k
    have h0 := hread 0
    have h1 := hread 1
    have h2 := hread 2
    have h3 := hread 3
    simp only [Nat.add_zero, List.cons_append, List.getElem?_cons_zero,
      List.getElem?_cons_succ] at h0 h1 h2 h3
    refine ⟨{ s with lastPixel := [b0, b1, b2, b3], pixSrc := s.pixSrc + 4 },
      by simp only [UnrleState.takePixel, hzero, if_true, h0, h1, h2, h3], hbytes.symm, ?_, rfl,
      rfl, rfl, rfl, rfl⟩
    rw [← List.drop_drop, hpixels]
    rfl

/-- One column more is decoded. -/
theorem Unrles.step (hwidth : row.length ≤ 256) (hx : x < row.length)
    (hmasks : MasksAt row data rleMask) (h : Unrles mode row data rleMask rest before after x s) :
    ∃ s', ((s.loadMask data).bind fun s => (s.takePixel data).bind UnrleState.setPixel) = some s' ∧
      Unrles mode row data rleMask rest before after (x + 1) s' := by
  obtain ⟨s₁, hload, hbit, h₁, hoffset, hmask⟩ := h.loadMask hwidth hx hmasks
  obtain ⟨s₂, htake, hlast, hpixels, hbit₂, hoffset₂, hmask₂, hpix₂, hout₂⟩ :=
    h₁.takePixel hwidth hx hbit hmask
  obtain ⟨segment, hout, hlen⟩ := h₁.output
  rw [← hout₂] at hout
  have hpixOffset : s₂.pixOffset = (before ++ rowBytes mode (row.take x)).length := by
    have hshort : min x row.length = x := by omega
    rw [hpix₂, h₁.pixOffset, List.length_append, rowBytes_length, List.length_take, hshort]
  have hpixel : (pixelBytes mode row[x]).length = 4 := by cases mode <;> rfl
  have hfits : s₂.pixOffset + 4 ≤ s₂.output.length := by
    rw [hout, hpixOffset]
    simp only [List.length_append]
    omega
  have hwrite : writeFrom s₂.output s₂.pixOffset s₂.lastPixel = before ++
      (rowBytes mode (row.take (x + 1)) ++ (segment.drop 4 ++ after)) := by
    have hsplit : s₂.output = (before ++ rowBytes mode (row.take x)) ++
        (segment.take 4 ++ (segment.drop 4 ++ after)) := by
      rw [hout, ← List.append_assoc (segment.take 4), List.take_append_drop, List.append_assoc]
    have hsegment : (segment.take 4).length = 4 := by
      rw [List.length_take]
      omega
    have hrow : rowBytes mode (row.take (x + 1)) =
        rowBytes mode (row.take x) ++ pixelBytes mode row[x] := by
      rw [List.take_succ_eq_append_getElem hx, rowBytes_append, rowBytes_eq mode [row[x]]]
      simp
    rw [hsplit, hpixOffset, hlast, writeFrom_segment _ _ _ _ (by rw [hpixel, hsegment]), hrow]
    simp only [List.append_assoc]
  refine ⟨{ s₂ with
      bitToCheck := s₂.bitToCheck <<< 1
      output := before ++ (rowBytes mode (row.take (x + 1)) ++ (segment.drop 4 ++ after))
      pixOffset := s₂.pixOffset + 4 }, ?_, ?_, ?_, ?_, ?_, segment.drop 4, rfl, ?_⟩
  · simp only [hload, htake, Option.bind_some, UnrleState.setPixel, hfits, if_true, hwrite]
  · rw [pixelBefore_succ Pixel.transparent row x hx]
    exact hlast
  · rw [pixelBefore_succ Pixel.transparent row x hx]
    exact hpixels
  · -- After the eighth column of a byte the next one is read.
    have hshift : s₂.bitToCheck <<< 1 = 2 ^ (x % 8 + 1) := by
      rw [hbit₂, hbit, Nat.shiftLeft_eq, Nat.pow_one, Nat.pow_succ]
    by_cases hend : x % 8 = 7
    · refine Or.inl ⟨?_, ?_, by omega⟩
      · simp only [hshift, hend]
        decide
      · simp only [hoffset₂, hoffset]
        omega
    · have hmod : (x + 1) % 8 = x % 8 + 1 := by omega
      have hdiv : (x + 1) / 8 = x / 8 := by omega
      rw [hmod, hdiv]
      exact Or.inr ⟨hshift, hoffset₂.trans hoffset, hmask₂.trans hmask⟩
  · simp only [hpix₂, h₁.pixOffset]
    omega
  · rw [List.length_drop]
    omega

/-- The inner loop decodes the rest of the row. -/
theorem Unrles.columns (hwidth : row.length ≤ 256) (hmasks : MasksAt row data rleMask)
    {columns : Nat} (hcolumns : x + columns = row.length)
    (h : Unrles mode row data rleMask rest before after x s) :
    ∃ s', unrleColumns data columns s = some s' ∧
      s'.output = before ++ (rowBytes mode row ++ after) := by
  induction columns generalizing x s with
  | zero =>
      obtain ⟨segment, hout, hlen⟩ := h.output
      have hnil : segment = [] := List.eq_nil_of_length_eq_zero (by omega)
      refine ⟨s, rfl, ?_⟩
      rw [hout, hnil, List.take_of_length_le (by omega), List.nil_append]
  | succ columns ih =>
      obtain ⟨s', hstep, h'⟩ := h.step hwidth (by omega) hmasks
      obtain ⟨s'', hrest, hout⟩ := ih (by omega) h'
      refine ⟨s'', ?_, hout⟩
      obtain ⟨s₁, hload, hstep⟩ := Option.bind_eq_some_iff.mp hstep
      obtain ⟨s₂, htake, hset⟩ := Option.bind_eq_some_iff.mp hstep
      simp only [unrleColumns, hload, htake, hset, Option.bind_some, hrest]

theorem changes_length_le (last : Pixel) (row : List Pixel) :
    (changes last row).length ≤ row.length := by
  induction row generalizing last with
  | nil => exact Nat.le_refl 0
  | cons pix rest ih =>
      simp only [changes]
      split
      · exact (ih last).trans (Nat.le_succ _)
      · exact Nat.succ_le_succ (ih pix)

theorem packForNetwork_length (mode : TileMode) (row : DeltaBitmapRow) (hmasks : row.rleMask.length = 4) :
    (row.packForNetwork mode).length = 34 + row.rleData.length * 4 := by
  simp only [DeltaBitmapRow.packForNetwork, List.length_append, List.length_cons, List.length_nil,
    flatMap_maskBytes_length, hmasks, rowBytes_length]

end Row

/-! ## Decoding a keyframe -/

/-- A packed row is decoded into the segment of the output it belongs to. -/
theorem unrleColumns_packForNetwork {mode : TileMode} {row : List Pixel}
    (hwidth : row.length ≤ 256) {data rest segment : List UInt8} (before after : List UInt8)
    {offset : Nat} (hdata : data.drop offset = (initPixRowCpu row).packForNetwork mode ++ rest)
    (hsegment : segment.length = row.length * 4) :
    ∃ low high s, data[offset]? = some low ∧ data[offset + 1]? = some high ∧
      low.toNat + high.toNat * 256 = (initPixRowCpu row).rleData.length ∧
      unrleColumns data row.length ⟨before ++ (segment ++ after), [0, 0, 0, 0], 0, 256, offset + 2,
        before.length, offset + 2 + 32⟩ = some s ∧
      s.output = before ++ (rowBytes mode row ++ after) := by
  have hsize : (initPixRowCpu row).rleData.length ≤ 256 := by
    rw [initPixRowCpu_rleData row hwidth]
    exact (changes_length_le _ row).trans hwidth
  generalize hn : (initPixRowCpu row).rleData.length = n at hsize
  have hread (k : Nat) := getElem?_of_drop hdata k
  have hlow := hread 0
  have hhigh := hread 1
  simp only [DeltaBitmapRow.packForNetwork, Nat.add_zero, List.cons_append,
    List.getElem?_cons_zero, List.getElem?_cons_succ, hn] at hlow hhigh
  have hmaskLength : ((initPixRowCpu row).rleMask.flatMap maskBytes).length = 32 := by
    rw [flatMap_maskBytes_length, initPixRowCpu_masks_length]
  have hmasks : MasksAt row data (offset + 2) := by
    intro k hk
    have hbyte := hread (k + 2)
    have hindex : offset + 2 + k = offset + (k + 2) := by omega
    rw [hindex, hbyte]
    simp only [DeltaBitmapRow.packForNetwork, List.cons_append, List.nil_append,
      List.getElem?_cons_succ, List.append_assoc]
    rw [List.getElem?_append_left (by omega), List.getD_eq_getElem?_getD,
      List.getElem?_eq_getElem (by omega)]
    rfl
  have hpixels : data.drop (offset + 2 + 32) =
      rowBytes mode (changes Pixel.transparent row) ++ rest := by
    rw [Nat.add_assoc, ← List.drop_drop, hdata, ← initPixRowCpu_rleData row hwidth,
      DeltaBitmapRow.packForNetwork, List.append_assoc]
    apply List.drop_left'
    rw [List.length_append, hmaskLength]
    rfl
  have h256 : 256 > 128 := by decide
  have hstart : Unrles mode row data (offset + 2) rest before after 0
      ⟨before ++ (segment ++ after), [0, 0, 0, 0], 0, 256, offset + 2, before.length,
        offset + 2 + 32⟩ := by
    refine ⟨by cases mode <;> rfl, hpixels, Or.inl ⟨h256, rfl, rfl⟩, by simp, segment, ?_, ?_⟩
    · simp [rowBytes_eq]
    · exact hsegment
  obtain ⟨s, hrun, hout⟩ := hstart.columns hwidth hmasks (Nat.zero_add _)
  refine ⟨_, _, s, hlow, hhigh, ?_, hrun, hout⟩
  have hlowByte : n % 2 ^ 8 < 256 := Nat.mod_lt _ (by decide)
  have hhighByte : n >>> 8 < 256 := by
    rw [Nat.shiftRight_eq_div_pow]
    omega
  rw [ofNat_toNat_of_lt hlowByte, ofNat_toNat_of_lt hhighByte, Nat.shiftRight_eq_div_pow]
  omega

/-- The rows of a keyframe are decoded one after the other. -/
theorem unrleRows_packRows (hasAVX2 : Bool) {mode : TileMode} {width outputOffset y offset : Nat}
    {rows : List (List Pixel)} (hwidth : width ≤ 256) (hrows : UniformRows width rows)
    {data rest before segment : List UInt8} (after : List UInt8)
    (hdata : data.drop offset = packRows hasAVX2 mode rows ++ rest)
    (hbefore : before.length = y * width * 4 + outputOffset)
    (hsegment : segment.length = rows.length * (width * 4)) :
    unrleRows data width outputOffset rows.length y offset (before ++ (segment ++ after)) =
      some (offset + (packRows hasAVX2 mode rows).length,
        before ++ (imageBytes mode rows ++ after)) := by
  induction rows generalizing y offset before segment with
  | nil =>
      have hnil : segment = [] := List.eq_nil_of_length_eq_zero (by simpa using hsegment)
      simp [unrleRows, packRows, imageBytes, hnil]
  | cons row rows ih =>
      have hrow : row.length = width := hrows row (by simp)
      have hcons : packRows hasAVX2 mode (row :: rows) =
          (initPixRowCpu row).packForNetwork mode ++ packRows hasAVX2 mode rows := by
        rw [packRows, List.flatMap_cons, initRow_eq]
        rfl
      rw [hcons, List.append_assoc] at hdata
      rw [List.length_cons, Nat.succ_mul] at hsegment
      have hfirst : (segment.take (width * 4)).length = row.length * 4 := by
        rw [List.length_take, hrow]
        omega
      have hsplit : before ++ (segment ++ after) =
          before ++ (segment.take (width * 4) ++ (segment.drop (width * 4) ++ after)) := by
        rw [← List.append_assoc (segment.take _), List.take_append_drop]
      obtain ⟨low, high, s, hlow, hhigh, hsize, hrun, hout⟩ :=
        unrleColumns_packForNetwork (hrow.le.trans hwidth) before
          (segment.drop (width * 4) ++ after) hdata hfirst
      have hlength := packForNetwork_length mode (initPixRowCpu row)
        (initPixRowCpu_masks_length row)
      have hdrop : data.drop (offset + 2 + 32 + (initPixRowCpu row).rleData.length * 4) =
          packRows hasAVX2 mode rows ++ rest := by
        have hoffset : offset + 2 + 32 + (initPixRowCpu row).rleData.length * 4 =
            offset + ((initPixRowCpu row).packForNetwork mode).length := by
          rw [hlength]
          omega
        rw [hoffset, ← List.drop_drop, hdata, List.drop_left]
      have hbefore' : (before ++ rowBytes mode row).length = (y + 1) * width * 4 + outputOffset := by
        rw [List.length_append, rowBytes_length, hrow, hbefore, Nat.succ_mul, Nat.add_mul]
        omega
      have hsegment' : (segment.drop (width * 4)).length = rows.length * (width * 4) := by
        rw [List.length_drop]
        omega
      have hrest := ih (fun r hr => hrows r (by simp [hr])) hdrop hbefore' hsegment'
      rw [List.append_assoc] at hrest
      rw [hrow, hbefore] at hrun
      rw [hsplit, List.length_cons]
      simp only [unrleRows, hlow, hhigh, hrun, Option.bind_some, hout, hsize, hrest]
      rw [hcons, List.length_append, hlength]
      simp only [imageBytes, List.map_cons, List.flatten_cons, List.append_assoc, Option.some.injEq,
        Prod.mk.injEq, and_true]
      omega

/-- The browser decodes the packed rows of a pixmap to its pixels and stops at their end, and
`PixIterator` reads the pixels of every row. -/
theorem unrle_packRows (hasAVX2 : Bool) (mode : TileMode) {width height : Nat}
    (pixmap : Pixmap width height) (hwidth : width ≤ 256) (rest before segment after : List UInt8)
    (hsegment : segment.length = height * (width * 4)) :
    unrle (packRows hasAVX2 mode pixmap.rows ++ rest) width height (before ++ (segment ++ after))
        before.length =
      some ((packRows hasAVX2 mode pixmap.rows).length,
        before ++ (imageBytes mode pixmap.rows ++ after)) ∧
      ∀ row ∈ pixmap.rows, ∀ x, (hx : x < row.length) →
        (PixIterator.next^[x] (PixIterator.ofRow (initRow hasAVX2 row))).getPixel = row[x] := by
  constructor
  · rw [← pixmap.rows_length] at hsegment
    have hdata : (packRows hasAVX2 mode pixmap.rows ++ rest).drop 0 =
        packRows hasAVX2 mode pixmap.rows ++ rest := rfl
    have hbefore : before.length = 0 * width * 4 + before.length := by simp
    have hrows := unrleRows_packRows hasAVX2 hwidth pixmap.row_length after hdata hbefore
      hsegment
    rw [pixmap.rows_length, Nat.zero_add] at hrows
    exact hrows
  · intro row hrow x hx
    have hlen : row.length ≤ 256 := (pixmap.row_length row hrow).le.trans hwidth
    rw [initRow_eq]
    exact PixIterator.at_lastPix row x _ hx (PixIterator.iterate_next_at row hlen x)

/-- Two rows of a tile, one of them blank, in front of a delta. -/
theorem unrle_packRows_twoRows :
    let red : Pixel := ⟨255, 0, 0, 255⟩
    let clear : Pixel := Pixel.transparent
    let pixmap : Pixmap 3 2 := ⟨[[red, red, clear], [clear, clear, clear]], rfl, by decide⟩
    unrle (packRows false .bgra pixmap.rows ++ [68, 116]) 3 2 (List.replicate 24 7) 0 =
      some (76, [0, 0, 255, 255, 0, 0, 255, 255] ++ List.replicate 16 0) := by
  intro red clear pixmap
  have hlength : (packRows false .bgra pixmap.rows).length = 76 := by decide +kernel
  have himage : imageBytes .bgra pixmap.rows =
      [0, 0, 255, 255, 0, 0, 255, 255] ++ List.replicate 16 0 := by decide
  have hdecode := (unrle_packRows false .bgra pixmap (by decide) [68, 116] []
    (List.replicate 24 7) [] (by decide)).1
  rw [hlength, himage] at hdecode
  simpa using hdecode

end CoolOnline.Delta
