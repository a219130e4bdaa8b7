import Mathlib.Data.List.Basic
import Mathlib.Logic.Function.Iterate

/-! # Compressed bitmap rows

`DeltaGenerator::DeltaBitmapRow` of `kit/Delta.hpp`: a row is kept as the pixels that
differ from their left neighbour and a 256-bit mask of the ones that repeat it. Reading a
row back through `PixIterator` returns the pixels it was built from.
-/

namespace CoolOnline.Delta

/-- The four bytes of a `uint32_t` pixel in memory order. -/
structure Pixel where
  r : UInt8
  g : UInt8
  b : UInt8
  a : UInt8
deriving DecidableEq, Repr

/-- The pixel `0x00000000` every row starts from. -/
def Pixel.transparent : Pixel := ⟨0, 0, 0, 0⟩

def Pixel.bytes (p : Pixel) : List UInt8 := [p.r, p.g, p.b, p.a]

@[simp] theorem Pixel.bytes_length (p : Pixel) : p.bytes.length = 4 := rfl

def rleMaskUnits : Nat := 256 / 64

/-- `_rleSize` is the length of `rleData`. -/
structure DeltaBitmapRow where
  rleMask : List (BitVec 64)
  rleData : List Pixel
deriving DecidableEq, Repr

/-- The locals of `initPixRowCpu` while it fills one 64-bit mask. -/
structure RleState where
  lastPix : Pixel
  bitToSet : BitVec 64
  rleMask : BitVec 64
  scratch : List Pixel

/-- The body shared by both inner loops of `initPixRowCpu`. -/
def RleState.pixel (s : RleState) (pix : Pixel) : RleState :=
  if pix = s.lastPix then
    { s with rleMask := s.rleMask ||| s.bitToSet, bitToSet := s.bitToSet <<< 1 }
  else
    { s with lastPix := pix, scratch := s.scratch ++ [pix], bitToSet := s.bitToSet <<< 1 }

/-- The inner loop for 64-bit chunks: it runs until `bitToSet` is shifted out. -/
def chunkLoop : List Pixel → RleState → List Pixel × RleState
  | [], s => ([], s)
  | pix :: rest, s =>
      if s.bitToSet = 0 then (pix :: rest, s) else chunkLoop rest (s.pixel pix)

/-- The loop over the masks; `from_` holds the pixels from column `x` on. -/
def maskLoop : Nat → List Pixel → Pixel → List Pixel → List (BitVec 64) × List Pixel × List Pixel
  | 0, from_, _, scratch => ([], from_, scratch)
  | masks + 1, from_, lastPix, scratch =>
      let start : RleState := ⟨lastPix, 1, 0, scratch⟩
      let done :=
        if from_.length > 64 then chunkLoop from_ start
        else ([], from_.foldl RleState.pixel start)
      let later := maskLoop masks done.1 done.2.lastPix done.2.scratch
      (done.2.rleMask :: later.1, later.2)

/-- `initPixRowCpu`: columns past the masks are stored uncompressed. -/
def initPixRowCpu (from_ : List Pixel) : DeltaBitmapRow :=
  let loop := maskLoop rleMaskUnits from_ Pixel.transparent []
  { rleMask := loop.1, rleData := loop.2.2 ++ loop.2.1 }

/-- `DeltaBitmapRow::identical`. -/
def DeltaBitmapRow.identical (row other : DeltaBitmapRow) : Bool :=
  row.rleData.length == other.rleData.length && row.rleMask == other.rleMask &&
    row.rleData == other.rleData

theorem DeltaBitmapRow.identical_iff (row other : DeltaBitmapRow) :
    row.identical other = true ↔ row = other := by
  cases row
  cases other
  simp only [identical, Bool.and_eq_true, beq_iff_eq, mk.injEq]
  constructor
  · rintro ⟨⟨-, hm⟩, hd⟩
    exact ⟨hm, hd⟩
  · rintro ⟨hm, hd⟩
    exact ⟨⟨congrArg _ hd, hm⟩, hd⟩

/-- `PixIterator`; `rlePtr` holds the pixels from `_rlePtr` up to `_endRleData`. -/
structure PixIterator where
  row : DeltaBitmapRow
  mask : Nat
  lastPix : Pixel
  lastMask : BitVec 64
  bitToCheck : BitVec 64
  rlePtr : List Pixel
deriving DecidableEq, Repr

def PixIterator.identical (it other : PixIterator) : Bool := it.lastPix == other.lastPix

/-- The slow path of `PixIterator::next`: fetch the next mask, all ones past the last. -/
def PixIterator.loadMask (it : PixIterator) : PixIterator :=
  if it.bitToCheck = 0 then
    if it.mask < rleMaskUnits then
      { it with
        lastMask := it.row.rleMask.getD it.mask 0, mask := it.mask + 1, bitToCheck := 1 }
    else
      { it with lastMask := BitVec.allOnes 64, bitToCheck := 1 }
  else it

/-- The fast path of `PixIterator::next`: a clear bit takes the next stored pixel. -/
def PixIterator.takePixel (it : PixIterator) : PixIterator :=
  if it.lastMask &&& it.bitToCheck = 0 then
    { it with
      lastPix := it.rlePtr.headD it.lastPix, rlePtr := it.rlePtr.tail
      bitToCheck := it.bitToCheck <<< 1 }
  else
    { it with bitToCheck := it.bitToCheck <<< 1 }

def PixIterator.next (it : PixIterator) : PixIterator :=
  if it.rlePtr = [] then it else it.loadMask.takePixel

/-- The constructor's member initialisation, before it calls `next`. -/
def PixIterator.begin (row : DeltaBitmapRow) : PixIterator :=
  ⟨row, 0, Pixel.transparent, 0, 0, row.rleData⟩

def PixIterator.ofRow (row : DeltaBitmapRow) : PixIterator := (PixIterator.begin row).next

/-! ## What `initPixRowCpu` records -/

/-- The pixels of a row that differ from the pixel before them. -/
def changes : Pixel → List Pixel → List Pixel
  | _, [] => []
  | last, pix :: rest => if pix = last then changes last rest else pix :: changes pix rest

/-- The pixel before column `x` of a row that is entered with `last`. -/
def pixelBefore (last : Pixel) (row : List Pixel) (x : Nat) : Pixel :=
  (last :: row).getD x Pixel.transparent

@[simp] theorem pixelBefore_zero (last : Pixel) (row : List Pixel) :
    pixelBefore last row 0 = last := rfl

@[simp] theorem pixelBefore_cons_succ (last pix : Pixel) (row : List Pixel) (x : Nat) :
    pixelBefore last (pix :: row) (x + 1) = pixelBefore pix row x := rfl

theorem pixelBefore_succ (last : Pixel) (row : List Pixel) (x : Nat) (hx : x < row.length) :
    pixelBefore last row (x + 1) = row[x] := by
  simp [pixelBefore, List.getD_eq_getElem?_getD, hx]

theorem changes_append (last : Pixel) (xs ys : List Pixel) :
    changes last (xs ++ ys) = changes last xs ++ changes (pixelBefore last xs xs.length) ys := by
  induction xs generalizing last with
  | nil => rfl
  | cons pix rest ih =>
      simp only [List.cons_append, changes, List.length_cons, pixelBefore_cons_succ]
      by_cases h : pix = last
      · simp only [h, if_true, ih]
      · simp only [h, if_false, ih, List.cons_append]

/-- Whether column `x` repeats the column before it. -/
def repeats (last : Pixel) (row : List Pixel) (x : Nat) : Prop :=
  x < row.length ∧ row[x]? = some (pixelBefore last row x)

instance (last : Pixel) (row : List Pixel) (x : Nat) : Decidable (repeats last row x) :=
  inferInstanceAs (Decidable (_ ∧ _))

theorem repeats_cons_zero (last pix : Pixel) (row : List Pixel) :
    repeats last (pix :: row) 0 ↔ pix = last := by
  simp [repeats]

theorem repeats_cons_succ (last pix : Pixel) (row : List Pixel) (x : Nat) :
    repeats last (pix :: row) (x + 1) ↔ repeats pix row x := by
  simp [repeats]

theorem repeats_append_left (last : Pixel) (xs ys : List Pixel) (x : Nat) (hx : x < xs.length) :
    repeats last (xs ++ ys) x ↔ repeats last xs x := by
  induction xs generalizing last x with
  | nil => simp at hx
  | cons pix rest ih =>
      cases x with
      | zero => simp [repeats_cons_zero]
      | succ x =>
          simp only [List.cons_append, repeats_cons_succ]
          exact ih pix x (by simpa using hx)

theorem repeats_append_right (last : Pixel) (xs ys : List Pixel) (x : Nat) :
    repeats last (xs ++ ys) (xs.length + x) ↔
      repeats (pixelBefore last xs xs.length) ys x := by
  induction xs generalizing last with
  | nil => simp
  | cons pix rest ih =>
      have hx : (pix :: rest).length + x = rest.length + x + 1 := by simp; omega
      rw [hx, List.cons_append, repeats_cons_succ, ih pix]
      rfl

theorem RleState.pixel_lastPix (s : RleState) (pix : Pixel) : (s.pixel pix).lastPix = pix := by
  unfold pixel
  split <;> simp_all

theorem RleState.pixel_bitToSet (s : RleState) (pix : Pixel) :
    (s.pixel pix).bitToSet = s.bitToSet <<< 1 := by
  unfold pixel
  split <;> rfl

theorem RleState.pixel_scratch (s : RleState) (pix : Pixel) :
    (s.pixel pix).scratch = s.scratch ++ changes s.lastPix [pix] := by
  unfold pixel
  split <;> simp_all [changes]

theorem RleState.pixel_rleMask (s : RleState) (pix : Pixel) :
    (s.pixel pix).rleMask = if pix = s.lastPix then s.rleMask ||| s.bitToSet else s.rleMask := by
  unfold pixel
  split <;> rfl

theorem twoPow_shiftLeft_one (b : Nat) :
    BitVec.twoPow 64 b <<< 1 = BitVec.twoPow 64 (b + 1) := by
  simp only [BitVec.twoPow, ← BitVec.shiftLeft_add]

theorem twoPow_eq_zero_iff (b : Nat) : BitVec.twoPow 64 b = 0#64 ↔ 64 ≤ b := by
  constructor
  · intro h
    by_contra hb
    have hbit := congrArg (fun v => BitVec.getLsbD v b) h
    simp [BitVec.getLsbD_twoPow] at hbit
    omega
  · intro h
    exact BitVec.eq_of_getLsbD_eq fun i hi => by
      simp [BitVec.getLsbD_twoPow]
      omega

theorem foldl_pixel_lastPix (row : List Pixel) (s : RleState) :
    (row.foldl RleState.pixel s).lastPix = pixelBefore s.lastPix row row.length := by
  induction row generalizing s with
  | nil => rfl
  | cons pix rest ih =>
      rw [List.foldl_cons, ih, RleState.pixel_lastPix, List.length_cons, pixelBefore_cons_succ]

theorem foldl_pixel_scratch (row : List Pixel) (s : RleState) :
    (row.foldl RleState.pixel s).scratch = s.scratch ++ changes s.lastPix row := by
  induction row generalizing s with
  | nil => simp [changes]
  | cons pix rest ih =>
      have happ := changes_append s.lastPix [pix] rest
      rw [List.foldl_cons, ih, RleState.pixel_scratch, RleState.pixel_lastPix, List.append_assoc]
      exact congrArg _ happ.symm

/-- Bit `b + x` of a mask is set exactly when column `x` repeats its left neighbour. -/
theorem foldl_pixel_rleMask (row : List Pixel) (s : RleState) (b i : Nat)
    (hbit : s.bitToSet = BitVec.twoPow 64 b) (hlen : b + row.length ≤ 64) :
    (row.foldl RleState.pixel s).rleMask.getLsbD i =
      (s.rleMask.getLsbD i || decide (b ≤ i ∧ repeats s.lastPix row (i - b))) := by
  induction row generalizing s b with
  | nil => simp [repeats]
  | cons pix rest ih =>
      have hb : b < 64 := by simp at hlen; omega
      have hstep := ih (s.pixel pix) (b + 1)
        (by rw [RleState.pixel_bitToSet, hbit, twoPow_shiftLeft_one])
        (by simp at hlen; omega)
      rw [List.foldl_cons, hstep, RleState.pixel_rleMask, RleState.pixel_lastPix, hbit]
      rcases Nat.lt_trichotomy i b with hi | rfl | hi
      · have h1 : ¬ b + 1 ≤ i := by omega
        have h2 : ¬ b ≤ i := by omega
        have h3 : b ≠ i := by omega
        split <;> simp [BitVec.getLsbD_twoPow, h1, h2, h3]
      · have h1 : ¬ i + 1 ≤ i := by omega
        simp only [Nat.sub_self, repeats_cons_zero]
        split <;> simp [*]
      · obtain ⟨x, rfl⟩ : ∃ x, i = b + 1 + x := ⟨i - (b + 1), by omega⟩
        have h1 : b + 1 + x - b = x + 1 := by omega
        have h2 : b + 1 + x - (b + 1) = x := by omega
        have h3 : b ≠ b + 1 + x := by omega
        have h4 : b ≤ b + 1 + x := by omega
        simp only [h1, h2, repeats_cons_succ]
        split <;> simp [BitVec.getLsbD_twoPow, h3, h4]

theorem chunkLoop_eq (row : List Pixel) (s : RleState) (b : Nat)
    (hbit : s.bitToSet = BitVec.twoPow 64 b) (hb : b ≤ 64) (hlen : 64 - b ≤ row.length) :
    chunkLoop row s = (row.drop (64 - b), (row.take (64 - b)).foldl RleState.pixel s) := by
  induction row generalizing s b with
  | nil =>
      have hb64 : 64 - b = 0 := by simpa using hlen
      simp [chunkLoop]
  | cons pix rest ih =>
      by_cases hend : b = 64
      · have hzero : s.bitToSet = 0 := by rw [hbit, hend]; decide
        simp [chunkLoop, hzero, hend]
      · have hne : s.bitToSet ≠ 0 := by
          rw [hbit]
          intro h
          have := (twoPow_eq_zero_iff b).mp h
          omega
        have hstep := ih (s.pixel pix) (b + 1)
          (by rw [RleState.pixel_bitToSet, hbit, twoPow_shiftLeft_one])
          (by omega) (by simp at hlen; omega)
        have hsub : 64 - b = (64 - (b + 1)) + 1 := by omega
        rw [chunkLoop, if_neg hne, hstep, hsub]
        rfl

theorem maskLoop_masks_length (masks : Nat) (row : List Pixel) (last : Pixel)
    (scratch : List Pixel) : (maskLoop masks row last scratch).1.length = masks := by
  induction masks generalizing row last scratch with
  | zero => rfl
  | succ masks ih => simp [maskLoop, ih]

/-- One round of the mask loop takes at most 64 columns off the row. -/
theorem maskLoop_succ (masks : Nat) (row : List Pixel) (last : Pixel) (scratch : List Pixel) :
    let done := (row.take 64).foldl RleState.pixel ⟨last, 1, 0, scratch⟩
    maskLoop (masks + 1) row last scratch =
      (done.rleMask :: (maskLoop masks (row.drop 64) done.lastPix done.scratch).1,
        (maskLoop masks (row.drop 64) done.lastPix done.scratch).2) := by
  by_cases h : row.length > 64
  · have hchunk := chunkLoop_eq row ⟨last, 1, 0, scratch⟩ 0 rfl (by omega) (by omega)
    simp only [maskLoop, if_pos h, hchunk, Nat.sub_zero]
  · have htake : row.take 64 = row := List.take_of_length_le (by omega)
    have hdrop : row.drop 64 = [] := List.drop_of_length_le (by omega)
    simp [maskLoop, h, htake, hdrop]

theorem maskLoop_scratch (masks : Nat) (row : List Pixel) (last : Pixel) (scratch : List Pixel)
    (hlen : row.length ≤ 64 * masks) :
    (maskLoop masks row last scratch).2 = ([], scratch ++ changes last row) := by
  induction masks generalizing row last scratch with
  | zero =>
      have hnil : row = [] := List.eq_nil_of_length_eq_zero (by omega)
      simp [maskLoop, hnil, changes]
  | succ masks ih =>
      have hsplit := changes_append last (row.take 64) (row.drop 64)
      rw [List.take_append_drop] at hsplit
      rw [maskLoop_succ]
      dsimp only
      rw [ih _ _ _ (by simp; omega), foldl_pixel_scratch, foldl_pixel_lastPix, hsplit,
        List.append_assoc]

theorem maskLoop_bit (masks : Nat) (row : List Pixel) (last : Pixel) (scratch : List Pixel)
    (m b : Nat) (hm : m < masks) (hb : b < 64) :
    ((maskLoop masks row last scratch).1.getD m 0).getLsbD b =
      decide (repeats last row (64 * m + b)) := by
  induction masks generalizing row last scratch m with
  | zero => omega
  | succ masks ih =>
      rw [maskLoop_succ]
      have htake : repeats last row b ↔ repeats last (row.take 64) b := by
        by_cases hlong : b < (row.take 64).length
        · conv_lhs => rw [← List.take_append_drop 64 row]
          exact repeats_append_left last _ _ b hlong
        · have hshort : row.length ≤ b := by simp at hlong; omega
          rw [List.take_of_length_le (by omega)]
      cases m with
      | zero =>
          have hshort : 0 + (row.take 64).length ≤ 64 := by rw [List.length_take]; omega
          have hmask := foldl_pixel_rleMask (row.take 64) ⟨last, 1, 0, scratch⟩ 0 b rfl hshort
          simp only [List.getD_cons_zero, hmask, Nat.mul_zero, Nat.zero_add, Nat.sub_zero]
          simp [htake]
      | succ m =>
          have hrec := ih (row.drop 64) (pixelBefore last (row.take 64) (row.take 64).length)
            (scratch ++ changes last (row.take 64)) m (by omega)
          simp only [List.getD_cons_succ, foldl_pixel_lastPix, foldl_pixel_scratch]
          rw [hrec]
          by_cases hlong : 64 ≤ row.length
          · have hlen : (row.take 64).length = 64 := by simp; omega
            have hright := repeats_append_right last (row.take 64) (row.drop 64) (64 * m + b)
            rw [List.take_append_drop, hlen] at hright
            have hx : 64 * (m + 1) + b = 64 + (64 * m + b) := by omega
            rw [hx, hlen]
            exact decide_eq_decide.mpr hright.symm
          · have hdrop : row.drop 64 = [] := List.drop_of_length_le (by omega)
            have hout : ¬ 64 * (m + 1) + b < row.length := by omega
            simp [repeats, hdrop, hout]

theorem initPixRowCpu_rleData (row : List Pixel) (hlen : row.length ≤ 256) :
    (initPixRowCpu row).rleData = changes Pixel.transparent row := by
  have h := maskLoop_scratch rleMaskUnits row Pixel.transparent [] (by simpa [rleMaskUnits])
  simp [initPixRowCpu, h]

theorem initPixRowCpu_bit (row : List Pixel) (m b : Nat) (hm : m < 4) (hb : b < 64) :
    ((initPixRowCpu row).rleMask.getD m 0).getLsbD b =
      decide (repeats Pixel.transparent row (64 * m + b)) :=
  maskLoop_bit rleMaskUnits row Pixel.transparent [] m b hm hb

/-! ## Reading a row back -/

/-- The iterator has read `x` columns of `row` and stands before the next one. -/
structure PixIterator.Reads (row : List Pixel) (x : Nat) (it : PixIterator) : Prop where
  source : it.row = initPixRowCpu row
  lastPix_eq : it.lastPix = pixelBefore Pixel.transparent row x
  rlePtr_eq : it.rlePtr = changes it.lastPix (row.drop x)
  position : it.rlePtr ≠ [] → it.bitToCheck = 0 ∧ 64 * it.mask = x ∨
    ∃ m b, it.mask = m + 1 ∧ x = 64 * m + b ∧ b < 64 ∧ it.bitToCheck = BitVec.twoPow 64 b ∧
      it.lastMask = (initPixRowCpu row).rleMask.getD m 0

theorem PixIterator.begin_reads (row : List Pixel) (hlen : row.length ≤ 256) :
    (PixIterator.begin (initPixRowCpu row)).Reads row 0 where
  source := rfl
  lastPix_eq := rfl
  rlePtr_eq := by simp [begin, initPixRowCpu_rleData row hlen]
  position _ := .inl ⟨rfl, rfl⟩

/-- Both pointers of a column: the pixel read and what is left of the stored pixels. -/
theorem changes_drop (row : List Pixel) (x : Nat) (hx : x < row.length) (last : Pixel) :
    changes last (row.drop x) =
      if row[x] = last then changes last (row.drop (x + 1))
      else row[x] :: changes row[x] (row.drop (x + 1)) := by
  rw [List.drop_eq_getElem_cons hx]
  rfl

/-- After the slow path the iterator looks at bit `b` of mask `m`, for column `64 * m + b`. -/
theorem PixIterator.loadMask_reads (row : List Pixel) (x : Nat) (it : PixIterator)
    (hlen : row.length ≤ 256) (hx : x < row.length) (h : it.Reads row x) (hne : it.rlePtr ≠ []) :
    ∃ m b, m < 4 ∧ b < 64 ∧ x = 64 * m + b ∧ it.loadMask.mask = m + 1 ∧
      it.loadMask.bitToCheck = BitVec.twoPow 64 b ∧
      it.loadMask.lastMask = (initPixRowCpu row).rleMask.getD m 0 := by
  rcases h.position hne with ⟨hbit, hmask⟩ | ⟨m, b, hmask, hxb, hb, hbit, hlast⟩
  · have hlt : it.mask < rleMaskUnits := by simp only [rleMaskUnits]; omega
    refine ⟨it.mask, 0, hlt, by omega, by omega, ?_⟩
    simp [loadMask, hbit, hlt, h.source, BitVec.twoPow]
  · have hbit0 : it.bitToCheck ≠ 0 := by
      rw [hbit]
      intro hzero
      have := (twoPow_eq_zero_iff b).mp hzero
      omega
    have hload : it.loadMask = it := by rw [loadMask, if_neg hbit0]
    rw [hload]
    exact ⟨m, b, by omega, hb, hxb, hmask, hbit, hlast⟩

theorem PixIterator.loadMask_frame (it : PixIterator) :
    it.loadMask.row = it.row ∧ it.loadMask.lastPix = it.lastPix ∧
      it.loadMask.rlePtr = it.rlePtr := by
  unfold loadMask
  split
  · split <;> exact ⟨rfl, rfl, rfl⟩
  · exact ⟨rfl, rfl, rfl⟩

/-- Reading one more column, whatever mask it is in. -/
theorem PixIterator.next_reads (row : List Pixel) (x : Nat) (it : PixIterator)
    (hlen : row.length ≤ 256) (hx : x < row.length) (h : it.Reads row x) :
    it.next.Reads row (x + 1) := by
  have hdrop := changes_drop row x hx it.lastPix
  have hafter := pixelBefore_succ Pixel.transparent row x hx
  by_cases hend : it.rlePtr = []
  · have hsame : row[x] = it.lastPix := by
      by_contra hne
      rw [← h.rlePtr_eq, hend, if_neg hne] at hdrop
      exact List.cons_ne_nil _ _ hdrop.symm
    rw [hsame] at hafter
    have hnext : it.next = it := by simp [next, hend]
    rw [hnext]
    refine ⟨h.source, hafter.symm, ?_, fun hne => absurd hend hne⟩
    rw [h.rlePtr_eq, hdrop, if_pos hsame]
  · obtain ⟨m, b, hm, hb, hxb, hmask, hbit, hlast⟩ := loadMask_reads row x it hlen hx h hend
    obtain ⟨hrow, hpix, hptr⟩ := it.loadMask_frame
    have hnext : it.next = it.loadMask.takePixel := by simp [next, hend]
    have htest : it.loadMask.lastMask &&& it.loadMask.bitToCheck = 0 ↔ row[x] ≠ it.lastPix := by
      have hrep : repeats Pixel.transparent row (64 * m + b) ↔ row[x] = it.lastPix := by
        simp [repeats, ← hxb, hx, h.lastPix_eq]
      rw [hlast, hbit, BitVec.and_twoPow, initPixRowCpu_bit row m b hm hb]
      by_cases hsame : row[x] = it.lastPix
      · have hne := (twoPow_eq_zero_iff b).not.mpr (by omega)
        simpa [hrep, hsame] using hne
      · simp [hrep, hsame]
    have hposition : it.loadMask.bitToCheck <<< 1 = 0 ∧ 64 * it.loadMask.mask = x + 1 ∨
        ∃ m b, it.loadMask.mask = m + 1 ∧ x + 1 = 64 * m + b ∧ b < 64 ∧
          it.loadMask.bitToCheck <<< 1 = BitVec.twoPow 64 b ∧
          it.loadMask.lastMask = (initPixRowCpu row).rleMask.getD m 0 := by
      rw [hbit, twoPow_shiftLeft_one]
      by_cases hlast64 : b = 63
      · exact .inl ⟨(twoPow_eq_zero_iff _).mpr (by omega), by omega⟩
      · exact .inr ⟨m, b + 1, hmask, by omega, by omega, rfl, hlast⟩
    rw [hnext]
    by_cases hsame : row[x] = it.lastPix
    · have htake : it.loadMask.takePixel =
          { it.loadMask with bitToCheck := it.loadMask.bitToCheck <<< 1 } := by
        rw [takePixel, if_neg (fun hzero => htest.mp hzero hsame)]
      rw [htake]
      refine ⟨hrow.trans h.source, ?_, ?_, fun _ => hposition⟩
      · rw [hafter, hsame]
        exact hpix
      · rw [if_pos hsame, ← h.rlePtr_eq] at hdrop
        simpa [hpix, hptr] using hdrop
    · rw [if_neg hsame, ← h.rlePtr_eq] at hdrop
      have htake : it.loadMask.takePixel =
          { it.loadMask with
            lastPix := row[x], rlePtr := changes row[x] (row.drop (x + 1))
            bitToCheck := it.loadMask.bitToCheck <<< 1 } := by
        rw [takePixel, if_pos (htest.mpr hsame), hptr, hdrop]
        rfl
      rw [htake]
      exact ⟨hrow.trans h.source, hafter.symm, rfl, fun _ => hposition⟩

/-- Past the last column the iterator keeps the last pixel. -/
theorem PixIterator.next_reads_end (row : List Pixel) (it : PixIterator)
    (h : it.Reads row row.length) : it.next = it := by
  have hptr : it.rlePtr = [] := by rw [h.rlePtr_eq, List.drop_length]; rfl
  simp [next, hptr]

/-- The iterator a diff uses stands on column `x`, or has run past the last one. -/
def PixIterator.At (row : List Pixel) (x : Nat) (it : PixIterator) : Prop :=
  it.Reads row (min (x + 1) row.length)

theorem PixIterator.ofRow_at (row : List Pixel) (hlen : row.length ≤ 256) :
    (PixIterator.ofRow (initPixRowCpu row)).At row 0 := by
  have hbegin := begin_reads row hlen
  unfold At ofRow
  by_cases hx : 0 < row.length
  · rw [Nat.min_eq_left hx]
    exact next_reads row 0 _ hlen hx hbegin
  · have hzero : row.length = 0 := by omega
    rw [next_reads_end row _ (by rwa [hzero]), Nat.min_eq_right (by omega), hzero]
    exact hbegin

theorem PixIterator.next_at (row : List Pixel) (x : Nat) (it : PixIterator)
    (hlen : row.length ≤ 256) (h : it.At row x) : it.next.At row (x + 1) := by
  unfold At at *
  by_cases hx : x + 1 < row.length
  · rw [Nat.min_eq_left (by omega)] at h ⊢
    exact next_reads row (x + 1) it hlen hx h
  · rw [Nat.min_eq_right (by omega)] at h ⊢
    rwa [next_reads_end row it h]

theorem PixIterator.at_lastPix (row : List Pixel) (x : Nat) (it : PixIterator)
    (hx : x < row.length) (h : it.At row x) : it.lastPix = row[x] := by
  unfold At at h
  rw [Nat.min_eq_left (by omega)] at h
  rw [h.lastPix_eq, pixelBefore_succ Pixel.transparent row x hx]

theorem PixIterator.iterate_next_at (row : List Pixel) (hlen : row.length ≤ 256) (x : Nat) :
    (PixIterator.next^[x] (PixIterator.ofRow (initPixRowCpu row))).At row x := by
  induction x with
  | zero =>
      rw [Function.iterate_zero_apply]
      exact ofRow_at row hlen
  | succ x ih =>
      rw [Function.iterate_succ_apply']
      exact next_at row x _ hlen ih

/-- Rows of one width that are identical as compressed rows have the same pixels. -/
theorem initPixRowCpu_injective (row other : List Pixel) (hlen : row.length ≤ 256)
    (hsame : other.length = row.length) (h : initPixRowCpu row = initPixRowCpu other) :
    row = other := by
  apply List.ext_getElem hsame.symm
  intro x hx hx'
  have hrow := PixIterator.iterate_next_at row hlen x
  have hother := PixIterator.iterate_next_at other (by omega) x
  rw [← h] at hother
  rw [← PixIterator.at_lastPix row x _ hx hrow, ← PixIterator.at_lastPix other x _ hx' hother]

end CoolOnline.Delta
