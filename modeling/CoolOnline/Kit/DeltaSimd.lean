import CoolOnline.Kit.DeltaRow

/-! # The accelerated row compression

`simd_initPixRowSimd` of `kit/DeltaSimd.c`, eight pixels a cycle. It fills the same masks
and stores the same pixels as `initPixRowCpu`, so `initRow` does not depend on the CPU.
-/

namespace CoolOnline.Delta

/-- The lanes of a vector compare, gathered into an integer with lane 0 lowest. -/
def movemask (w : Nat) (lanes : List Bool) : BitVec w :=
  lanes.foldr (fun lane rest => rest <<< 1 ||| if lane then 1 else 0) 0

/-- `diffMask`: which of the eight lanes are equal. -/
def diffMask (prev curr : List Pixel) : BitVec 8 := movemask 8 (List.zipWith (· == ·) prev curr)

/-- `vpermd_lut`: the lanes whose bit is clear, padded with lane 0. -/
def vpermdLut (pattern : BitVec 8) : List Nat :=
  let clear := (List.range 8).filter fun src => !pattern.getLsbD src
  clear ++ List.replicate (8 - clear.length) 0

/-- `_mm256_permutevar8x32_epi32`. -/
def permute (lanes : List Pixel) (control : List Nat) : List Pixel :=
  control.map fun src => lanes.getD src Pixel.transparent

/-- The previous pixel of each lane: the block shifted by one behind the last lane of `prev`. -/
def shiftLanes (prev curr : List Pixel) : List Pixel :=
  prev.getD 7 Pixel.transparent :: curr.take 7

def countBitsUnset (newMask : BitVec 8) : Nat :=
  ((List.range 8).filter fun lane => !newMask.getLsbD lane).length

/-- The loop of `simd_initPixRowSimd`: one mask byte and its stored pixels a cycle. -/
def simdLoop : Nat → List Pixel → List Pixel → List (BitVec 8) × List Pixel
  | 0, _, _ => ([], [])
  | cycles + 1, block, prev =>
      let curr := block.take 8
      let newMask := diffMask (shiftLanes prev curr) curr
      let packed := permute curr (vpermdLut newMask)
      let later := simdLoop cycles (block.drop 8) curr
      (newMask :: later.1, packed.take (countBitsUnset newMask) ++ later.2)

/-- Eight mask bytes read as one little-endian word. -/
def leWord (bytes : List (BitVec 8)) : BitVec 64 :=
  bytes.foldr (fun byte rest => rest <<< 8 ||| byte.setWidth 64) 0

def simdInitPixRow (from_ : List Pixel) : DeltaBitmapRow :=
  let loop := simdLoop (256 / 8) from_ (List.replicate 8 Pixel.transparent)
  { rleMask := (List.range 4).map fun word => leWord ((loop.1.drop (8 * word)).take 8)
    rleData := loop.2 }

/-- `DeltaBitmapRow::initRow`. -/
def initRow (hasAVX2 : Bool) (from_ : List Pixel) : DeltaBitmapRow :=
  if hasAVX2 && from_.length == 256 then simdInitPixRow from_ else initPixRowCpu from_

theorem movemask_getLsbD (w : Nat) (lanes : List Bool) (i : Nat) (hlen : lanes.length ≤ w) :
    (movemask w lanes).getLsbD i = lanes.getD i false := by
  induction lanes generalizing i with
  | nil => simp [movemask]
  | cons lane rest ih =>
      have hpos : 0 < w := by simp at hlen; omega
      have hrest : (movemask w (lane :: rest)) =
          movemask w rest <<< 1 ||| if lane then 1 else 0 := rfl
      have hone : ∀ j, (if lane then (1 : BitVec w) else 0).getLsbD j = (decide (j = 0) && lane) := by
        intro j
        cases lane <;> simp [hpos]
      rw [hrest, BitVec.getLsbD_or, hone]
      cases i with
      | zero => simp
      | succ i =>
          have hi := ih i (by simp at hlen; omega)
          by_cases hw : i + 1 < w
          · rw [List.getD_cons_succ, ← hi, BitVec.getLsbD_shiftLeft]
            simp [hw]
          · have hout : rest.length ≤ i := by simp at hlen; omega
            simp [BitVec.getLsbD_shiftLeft, hw, hout]

theorem leWord_getLsbD (bytes : List (BitVec 8)) (i : Nat) (hi : i < 64) :
    (leWord bytes).getLsbD i = (bytes.getD (i / 8) 0).getLsbD (i % 8) := by
  induction bytes generalizing i with
  | nil => simp [leWord]
  | cons byte rest ih =>
      have hrest : leWord (byte :: rest) = leWord rest <<< 8 ||| byte.setWidth 64 := rfl
      rw [hrest, BitVec.getLsbD_or, BitVec.getLsbD_shiftLeft]
      by_cases hlow : i < 8
      · have hdiv : i / 8 = 0 := by omega
        have hmod : i % 8 = i := by omega
        simp [hlow, hdiv, hmod, hi]
      · have hdiv : i / 8 = (i - 8) / 8 + 1 := by omega
        have hmod : i % 8 = (i - 8) % 8 := by omega
        have hhigh : byte.getLsbD i = false := BitVec.getLsbD_of_ge byte i (by omega)
        rw [ih (i - 8) (by omega), hdiv, hmod]
        simp [hlow, hi, hhigh]

/-! ## One cycle -/

theorem diffMask_getLsbD (prev curr : List Pixel) (hlen : curr.length = 8) (i : Nat) :
    (diffMask (shiftLanes prev curr) curr).getLsbD i =
      decide (repeats (prev.getD 7 Pixel.transparent) curr i) := by
  have hzip : (List.zipWith (· == ·) (shiftLanes prev curr) curr).length ≤ 8 := by
    simp only [List.length_zipWith, hlen]
    omega
  rw [diffMask, movemask_getLsbD 8 _ i hzip]
  by_cases hi : i < 8
  · have hlane : (shiftLanes prev curr)[i]? =
        some (pixelBefore (prev.getD 7 Pixel.transparent) curr i) := by
      cases i with
      | zero => simp [shiftLanes]
      | succ i =>
          have hi' : i < curr.length := by omega
          rw [pixelBefore_succ _ curr i hi']
          simp [shiftLanes, hi', show i < 7 by omega]
    have hi' : i < curr.length := by omega
    simp [List.getD_eq_getElem?_getD, List.getElem?_zipWith, hlane, repeats, hi', eq_comm,
      Bool.beq_eq_decide_eq]
  · have hout : ¬ i < curr.length := by omega
    rw [List.getD_eq_getElem?_getD, List.getElem?_eq_none (by omega)]
    simp [repeats, hout]

/-- Gathering the lanes that do not repeat is what the scalar loop stores. -/
theorem gather_changes (last : Pixel) (curr : List Pixel) :
    ((List.range curr.length).filter fun src => !decide (repeats last curr src)).map
        (fun src => curr.getD src Pixel.transparent) = changes last curr := by
  induction curr generalizing last with
  | nil => rfl
  | cons pix rest ih =>
      have hrest := ih pix
      rw [List.length_cons, List.range_succ_eq_map, List.filter_cons, List.filter_map]
      simp only [Function.comp_def, Nat.succ_eq_add_one, repeats_cons_succ, repeats_cons_zero]
      by_cases hsame : pix = last
      · subst hsame
        simp only [decide_true, Bool.not_true, Bool.false_eq_true, if_false, List.map_map]
        rw [changes, if_pos rfl, ← hrest]
        rfl
      · simp only [hsame, decide_false, Bool.not_false, if_true, List.map_cons, List.map_map]
        rw [changes, if_neg hsame, ← hrest]
        rfl

theorem packed_eq (prev curr : List Pixel) (hlen : curr.length = 8) :
    (permute curr (vpermdLut (diffMask (shiftLanes prev curr) curr))).take
        (countBitsUnset (diffMask (shiftLanes prev curr) curr)) =
      changes (prev.getD 7 Pixel.transparent) curr := by
  have hgather := gather_changes (prev.getD 7 Pixel.transparent) curr
  have hclear : (List.range 8).filter
      (fun src => !(diffMask (shiftLanes prev curr) curr).getLsbD src) =
      (List.range curr.length).filter
        fun src => !decide (repeats (prev.getD 7 Pixel.transparent) curr src) := by
    simp only [diffMask_getLsbD prev curr hlen, hlen]
  rw [countBitsUnset, permute, vpermdLut, hclear]
  simp only [List.map_append]
  rw [List.take_append_of_le_length (by simp), List.take_of_length_le (by simp), hgather]

/-! ## The whole row -/

theorem simdLoop_scratch (cycles : Nat) (block prev : List Pixel)
    (hlen : block.length = 8 * cycles) :
    (simdLoop cycles block prev).2 = changes (prev.getD 7 Pixel.transparent) block := by
  induction cycles generalizing block prev with
  | zero =>
      have hnil : block = [] := List.eq_nil_of_length_eq_zero (by omega)
      simp [simdLoop, hnil, changes]
  | succ cycles ih =>
      have hcurr : (block.take 8).length = 8 := by simp; omega
      have hsplit := changes_append (prev.getD 7 Pixel.transparent) (block.take 8) (block.drop 8)
      have hlast : pixelBefore (prev.getD 7 Pixel.transparent) (block.take 8) 8 =
          (block.take 8).getD 7 Pixel.transparent := rfl
      rw [List.take_append_drop, hcurr, hlast] at hsplit
      rw [simdLoop]
      dsimp only
      rw [packed_eq prev _ hcurr, ih _ _ (by simp; omega), hsplit]

theorem simdLoop_bit (cycles : Nat) (block prev : List Pixel) (m b : Nat)
    (hlen : block.length = 8 * cycles) (hm : m < cycles) (hb : b < 8) :
    ((simdLoop cycles block prev).1.getD m 0).getLsbD b =
      decide (repeats (prev.getD 7 Pixel.transparent) block (8 * m + b)) := by
  induction cycles generalizing block prev m with
  | zero => omega
  | succ cycles ih =>
      have hcurr : (block.take 8).length = 8 := by simp; omega
      rw [simdLoop]
      dsimp only
      cases m with
      | zero =>
          have hleft := repeats_append_left (prev.getD 7 Pixel.transparent) (block.take 8)
            (block.drop 8) b (by omega)
          rw [List.take_append_drop] at hleft
          rw [List.getD_cons_zero, diffMask_getLsbD prev _ hcurr, Nat.mul_zero, Nat.zero_add]
          exact decide_eq_decide.mpr hleft.symm
      | succ m =>
          have hright := repeats_append_right (prev.getD 7 Pixel.transparent) (block.take 8)
            (block.drop 8) (8 * m + b)
          have hlast : pixelBefore (prev.getD 7 Pixel.transparent) (block.take 8) 8 =
              (block.take 8).getD 7 Pixel.transparent := rfl
          rw [List.take_append_drop, hcurr, hlast] at hright
          have hx : 8 * (m + 1) + b = 8 + (8 * m + b) := by omega
          rw [List.getD_cons_succ, ih _ _ m (by simp; omega) (by omega), hx]
          exact decide_eq_decide.mpr hright.symm

/-- The accelerated compression of a 256-pixel row is the scalar one. -/
theorem simdInitPixRow_eq (row : List Pixel) (hlen : row.length = 256) :
    simdInitPixRow row = initPixRowCpu row := by
  have hscratch := simdLoop_scratch 32 row (List.replicate 8 Pixel.transparent) (by omega)
  have hmask : (simdInitPixRow row).rleMask = (initPixRowCpu row).rleMask := by
    apply List.ext_getElem
    · simp [simdInitPixRow, initPixRowCpu, maskLoop_masks_length, rleMaskUnits]
    intro m hm hm'
    have hm4 : m < 4 := by simpa [simdInitPixRow] using hm
    apply BitVec.eq_of_getLsbD_eq
    intro b hb
    have hcpu := initPixRowCpu_bit row m b hm4 hb
    rw [List.getD_eq_getElem?_getD, List.getElem?_eq_getElem hm', Option.getD_some] at hcpu
    have hbyte := simdLoop_bit 32 row (List.replicate 8 Pixel.transparent) (8 * m + b / 8) (b % 8)
      (by omega) (by omega) (by omega)
    have hx : 8 * (8 * m + b / 8) + b % 8 = 64 * m + b := by omega
    have hsel : ((List.drop (8 * m)
        (simdLoop 32 row (List.replicate 8 Pixel.transparent)).1).take 8).getD (b / 8) 0 =
        (simdLoop 32 row (List.replicate 8 Pixel.transparent)).1.getD (8 * m + b / 8) 0 := by
      simp [List.getD_eq_getElem?_getD, show b / 8 < 8 by omega]
    rw [hcpu]
    simp only [simdInitPixRow, List.getElem_map, List.getElem_range, Nat.reduceDiv]
    rw [leWord_getLsbD _ b hb, hsel, hbyte, hx]
    rfl
  have hdata : (simdInitPixRow row).rleData = (initPixRowCpu row).rleData := by
    rw [initPixRowCpu_rleData row (by omega)]
    exact hscratch
  cases hs : simdInitPixRow row
  cases hc : initPixRowCpu row
  simp_all

theorem initRow_eq (hasAVX2 : Bool) (row : List Pixel) :
    initRow hasAVX2 row = initPixRowCpu row := by
  unfold initRow
  split
  · next h => exact simdInitPixRow_eq row (by simp_all)
  · rfl

end CoolOnline.Delta
