import CoolOnline.Kit.DeltaSimd
import CoolOnline.Library.Avx2

/-! # The accelerated row compression, instruction by instruction

`simd_initPixRowSimd` of `kit/DeltaSimd.c` on vectors and a scratch buffer: it stores eight pixels
a cycle, most of which the next cycle writes over.
-/

namespace CoolOnline.Delta

open Avx2

/-- A pixel as a little-endian word. -/
def Pixel.word (p : Pixel) : BitVec 32 :=
  p.a.toBitVec ++ p.b.toBitVec ++ p.g.toBitVec ++ p.r.toBitVec

/-! ## The tables -/

/-- The entry of the table for a pattern, up to its conversion into a vector: a set bit is a
duplicate, and the rest copies the first point. -/
def gatherLut (pattern : BitVec 32) : List (BitVec 8) :=
  let lut := (List.range 8).foldl
    (fun lut src => if pattern &&& (1#32 <<< src) = 0 then lut ++ [BitVec.ofNat 8 src] else lut) []
  lut ++ List.replicate (8 - lut.length) 0

/-- `init_gather_lut`: the table `vpermd_lut`. -/
def gatherVectors : List M256i := (List.range 256).map fun pattern =>
  let lut (i : Nat) := (gatherLut (BitVec.ofNat 32 pattern)).getD i 0
  setEpi8 [0, 0, 0, lut 7, 0, 0, 0, lut 6, 0, 0, 0, lut 5, 0, 0, 0, lut 4,
    0, 0, 0, lut 3, 0, 0, 0, lut 2, 0, 0, 0, lut 1, 0, 0, 0, lut 0]

def vpermdShiftLeft : M256i :=
  setEpi8 [0, 0, 0, 6, 0, 0, 0, 5, 0, 0, 0, 4, 0, 0, 0, 3,
    0, 0, 0, 2, 0, 0, 0, 1, 0, 0, 0, 0, 0, 0, 0, 0]

def vpermdLastToFirst : M256i :=
  setEpi8 [0, 0, 0, 0, 0, 0, 0, 0, 0, 0, 0, 0, 0, 0, 0, 0,
    0, 0, 0, 0, 0, 0, 0, 0, 0, 0, 0, 0, 0, 0, 0, 7]

def lowPixelMask : M256i :=
  setEpi8 [0, 0, 0, 0, 0, 0, 0, 0, 0, 0, 0, 0, 0, 0, 0, 0,
    0, 0, 0, 0, 0, 0, 0, 0, 0, 0, 0, 0, 0xff, 0xff, 0xff, 0xff]

/-! ## The loop -/

namespace Simd

def diffMask (prev curr : M256i) : BitVec 64 := (movemaskPs (cmpeq prev curr)).setWidth 64

/-- The locals of `simd_initPixRowSimd`; `dest` is counted from the start of the buffer. -/
structure State where
  prev : M256i
  dest : Nat
  scratch : List (BitVec 32)
  rleMaskBlock : List (BitVec 8)

/-- The pixels to compare with: the current ones shifted by one behind the last pixel. -/
def shifted (prev curr : M256i) : M256i :=
  let lastPix := Avx2.and lowPixelMask (permutevar8x32 prev vpermdLastToFirst)
  Avx2.or (andnot lowPixelMask (permutevar8x32 curr vpermdShiftLeft)) lastPix

/-- The body of the loop, for the eight pixels from `x` on. It fails on an access beyond the row,
the table or the buffer. -/
def cycle (block : List (BitVec 32)) (x : Nat) (s : State) : Option State := do
  let curr ← loadu block x
  let newMask := diffMask (shifted s.prev curr) curr
  let newMaskInverse := (~~~newMask &&& 0xff#64).setWidth 32
  let controlVector ← gatherVectors[newMask.toNat]?
  let packed := permutevar8x32 curr controlVector
  let scratch ← storeu s.scratch s.dest packed
  some
    { prev := curr
      dest := s.dest + popcnt newMaskInverse
      scratch := scratch
      rleMaskBlock := s.rleMaskBlock.set (x / 8) (newMask.setWidth 8) }

def cycles (block : List (BitVec 32)) : Nat → Nat → State → Option State
  | 0, _, s => some s
  | n + 1, x, s => (cycle block x s).bind (cycles block n (x + 8))

end Simd

/-- What `simd_initPixRowSimd` writes: the four mask words, `*scratchLen` and the buffer. -/
structure SimdRow where
  rleMask : List (BitVec 64)
  scratchLen : Nat
  scratch : List (BitVec 32)

def simdInitPixRowSimd (from_ scratch : List (BitVec 32)) : Option SimdRow :=
  (Simd.cycles from_ (256 / 8) 0 ⟨setzero, 0, scratch, List.replicate 32 0⟩).map fun s =>
    { rleMask := (List.range 4).map fun word => leWord ((s.rleMaskBlock.drop (8 * word)).take 8)
      scratchLen := s.dest
      scratch := s.scratch }

/-! ## Lanes and pixels -/

theorem Pixel.word_inj {p q : Pixel} : p.word = q.word ↔ p = q := by
  constructor
  · intro h
    obtain ⟨hbgra, hr⟩ := append_inj h
    obtain ⟨hba, hg⟩ := append_inj hbgra
    obtain ⟨ha, hb⟩ := append_inj hba
    cases p
    cases q
    simp_all [UInt8.toBitVec_inj]
  · rintro rfl
    rfl

@[simp] theorem Pixel.word_transparent : Pixel.transparent.word = 0 := rfl

/-- The vector of eight pixels. -/
def toLanes (pixels : List Pixel) : M256i := fun lane =>
  (pixels.getD lane Pixel.transparent).word

theorem loadu_pixels {row : List Pixel} {x : Nat} (h : x + 8 ≤ row.length) :
    loadu (row.map Pixel.word) x = some (toLanes ((row.drop x).take 8)) := by
  rw [loadu_of_le (by simpa using h)]
  congr 1
  funext lane
  have hlane : x + lane < row.length := by omega
  rw [toLanes, List.getD_eq_getElem?_getD, List.getD_eq_getElem?_getD, List.getElem?_map,
    List.getElem?_take_of_lt lane.isLt, List.getElem?_drop, List.getElem?_eq_getElem hlane]
  rfl

theorem vpermdShiftLeft_eq : vpermdShiftLeft = fun lane =>
    BitVec.setWidth 32 ([0#8, 0, 1, 2, 3, 4, 5, 6].get lane) := setEpi8_lanes ..

theorem vpermdLastToFirst_zero : vpermdLastToFirst 0 = 7 := rfl

theorem lowPixelMask_eq (lane : Fin 8) :
    lowPixelMask lane = if lane = 0 then BitVec.allOnes 32 else 0#32 := by
  fin_cases lane <;> rfl

/-- The last pixel comes first, and the others move up by one. -/
theorem shifted_toLanes {prev : M256i} {pixels curr : List Pixel}
    (hprev : prev 7 = (pixels.getD 7 Pixel.transparent).word) :
    Simd.shifted prev (toLanes curr) = toLanes (shiftLanes pixels curr) := by
  funext lane
  by_cases hlane : lane = 0
  · subst hlane
    have hfirst : Simd.shifted prev (toLanes curr) 0 = prev 7 := by
      simp only [Simd.shifted, Avx2.or, andnot, Avx2.and, lowPixelMask_eq, permutevar8x32,
        vpermdLastToFirst_zero, if_true]
      rw [BitVec.not_allOnes, BitVec.zero_and, BitVec.zero_or, BitVec.allOnes_and]
      rfl
    rw [hfirst, hprev]
    rfl
  · have hrest : Simd.shifted prev (toLanes curr) lane =
        toLanes curr (Fin.ofNat 8 (vpermdShiftLeft lane).toNat) := by
      simp only [Simd.shifted, Avx2.or, andnot, Avx2.and, lowPixelMask_eq, permutevar8x32,
        if_neg hlane]
      rw [BitVec.not_zero, BitVec.allOnes_and, BitVec.zero_and, BitVec.or_zero]
    rw [hrest, vpermdShiftLeft_eq]
    fin_cases lane
    · exact absurd rfl hlane
    all_goals simp [toLanes, shiftLanes, List.getD_eq_getElem?_getD]

theorem movemaskPs_eq (v : M256i) :
    movemaskPs v = movemask 32 ((List.finRange 8).map fun lane => (v lane).msb) := by
  rw [movemaskPs, movemask, List.foldr_map]

/-- The mask of eight pixels that repeat those before them. -/
theorem diffMask_toLanes {prev curr : List Pixel} (hprev : prev.length = 8)
    (hcurr : curr.length = 8) :
    Simd.diffMask (toLanes prev) (toLanes curr) = (diffMask prev curr).setWidth 64 := by
  have hlanes : (List.finRange 8).map (fun lane => (cmpeq (toLanes prev) (toLanes curr) lane).msb) =
      List.zipWith (· == ·) prev curr := by
    apply List.ext_getElem
    · simp [hprev, hcurr]
    · intro i hi hi'
      simp only [List.getElem_map, msb_cmpeq, toLanes, Pixel.word_inj, List.getElem_zipWith]
      have hlt : i < 8 := by simpa using hi
      simp [List.getD_eq_getElem?_getD, hprev, hcurr, hlt, Bool.beq_eq_decide_eq]
  have hlength : (List.zipWith (· == ·) prev curr).length = 8 := by simp [hprev, hcurr]
  rw [Simd.diffMask, movemaskPs_eq, hlanes, diffMask]
  apply BitVec.eq_of_getLsbD_eq
  intro i hi
  rw [BitVec.getLsbD_setWidth, BitVec.getLsbD_setWidth, movemask_getLsbD 32 _ i (by omega),
    movemask_getLsbD 8 _ i (by omega)]

/-! ## The gather table -/

/-- The test of a bit of the pattern. -/
theorem and_shiftLeft_eq_zero (mask : BitVec 8) {src : Nat} (hsrc : src < 8) :
    BitVec.ofNat 32 mask.toNat &&& (1#32 <<< src) = 0 ↔ (!mask.getLsbD src) = true := by
  have hbit : (BitVec.ofNat 32 mask.toNat).getLsbD src = mask.getLsbD src := by
    rw [BitVec.getLsbD_ofNat, BitVec.testBit_toNat]
    simp [show src < 32 by omega]
  rw [← BitVec.twoPow_eq, BitVec.and_twoPow, hbit]
  cases mask.getLsbD src with
  | false => simp
  | true =>
      have hne : BitVec.twoPow 32 src ≠ 0#32 := by
        intro hzero
        have hset := congrArg (fun v : BitVec 32 => v.getLsbD src) hzero
        simp [show src < 32 by omega] at hset
      simpa using hne

theorem foldl_gather (mask : BitVec 8) (srcs : List Nat) (hsrcs : ∀ src ∈ srcs, src < 8)
    (lut : List (BitVec 8)) :
    srcs.foldl (fun lut src => if BitVec.ofNat 32 mask.toNat &&& (1#32 <<< src) = 0 then
        lut ++ [BitVec.ofNat 8 src] else lut) lut =
      lut ++ (srcs.filter fun src => !mask.getLsbD src).map (BitVec.ofNat 8) := by
  induction srcs generalizing lut with
  | nil => simp
  | cons src srcs ih =>
      have hsrc := and_shiftLeft_eq_zero mask (hsrcs src List.mem_cons_self)
      have hrest : ∀ src ∈ srcs, src < 8 := fun s hs => hsrcs s (List.mem_cons_of_mem src hs)
      rw [List.foldl_cons, ih hrest]
      cases hclear : mask.getLsbD src with
      | false =>
          rw [if_pos (hsrc.mpr (by rw [hclear]; rfl))]
          simp [hclear]
      | true =>
          have hset : ¬ BitVec.ofNat 32 mask.toNat &&& (1#32 <<< src) = 0 := by
            rw [hsrc, hclear]
            decide
          rw [if_neg hset]
          simp [hclear]

theorem gatherLut_eq (mask : BitVec 8) :
    gatherLut (BitVec.ofNat 32 mask.toNat) = (vpermdLut mask).map (BitVec.ofNat 8) := by
  have hgather := foldl_gather mask (List.range 8) (fun src hsrc => List.mem_range.mp hsrc) []
  rw [List.nil_append] at hgather
  simp only [gatherLut, hgather, vpermdLut, List.map_append, List.map_replicate, List.length_map]
  rfl

theorem vpermdLut_length (mask : BitVec 8) : (vpermdLut mask).length = 8 := by
  have hle := List.length_filter_le (fun src => !mask.getLsbD src) (List.range 8)
  rw [List.length_range] at hle
  rw [vpermdLut, List.length_append, List.length_replicate]
  omega

theorem vpermdLut_lt (mask : BitVec 8) {src : Nat} (h : src ∈ vpermdLut mask) : src < 8 := by
  rcases List.mem_append.mp h with hclear | hpad
  · exact List.mem_range.mp (List.mem_filter.mp hclear).1
  · rw [List.eq_of_mem_replicate hpad]
    decide

/-- The control lanes for a mask. -/
def controlVector (mask : BitVec 8) : M256i := fun lane =>
  BitVec.setWidth 32 (BitVec.ofNat 8 ((vpermdLut mask).getD lane 0))

theorem gatherVectors_getElem? (mask : BitVec 8) :
    gatherVectors[mask.toNat]? = some (controlVector mask) := by
  have hlt : mask.toNat < 256 := mask.isLt
  have hentry (i : Nat) (hi : i < 8) : (gatherLut (BitVec.ofNat 32 mask.toNat)).getD i 0 =
      BitVec.ofNat 8 ((vpermdLut mask).getD i 0) := by
    have hi' : i < (vpermdLut mask).length := by
      rw [vpermdLut_length]
      exact hi
    rw [gatherLut_eq]
    simp [List.getD_eq_getElem?_getD, hi']
  simp only [gatherVectors, setEpi8_lanes]
  rw [List.getElem?_map, List.getElem?_range hlt, Option.map_some]
  congr 1
  funext lane
  rw [controlVector, ← hentry lane lane.isLt]
  fin_cases lane <;> rfl

/-- The gathered pixels. -/
theorem permute_toLanes (curr : List Pixel) (mask : BitVec 8) :
    permutevar8x32 (toLanes curr) (controlVector mask) = toLanes (permute curr (vpermdLut mask)) := by
  funext lane
  have hlane : lane.val < (vpermdLut mask).length := by
    rw [vpermdLut_length]
    exact lane.isLt
  have hentry : (vpermdLut mask).getD lane 0 = (vpermdLut mask)[lane.val] := by
    simp [List.getD_eq_getElem?_getD, hlane]
  have hget : (permute curr (vpermdLut mask)).getD lane Pixel.transparent =
      curr.getD (vpermdLut mask)[lane.val] Pixel.transparent := by
    simp [permute, List.getD_eq_getElem?_getD, hlane]
  have hsrc := vpermdLut_lt mask (List.getElem_mem hlane)
  generalize (vpermdLut mask)[lane.val] = src at hentry hget hsrc
  have hmod : src % 2 ^ 8 % 2 ^ 32 % 8 = src := by omega
  rw [toLanes, hget, permutevar8x32, controlVector, hentry, toLanes, BitVec.toNat_setWidth,
    BitVec.toNat_ofNat, Fin.val_ofNat, hmod]

/-- The number of pixels that do not repeat the one before. -/
theorem popcnt_eq (mask : BitVec 8) :
    popcnt ((~~~(mask.setWidth 64) &&& 0xff#64).setWidth 32) = countBitsUnset mask := by
  have hbit (i : Nat) (hi : i < 32) :
      ((~~~(mask.setWidth 64) &&& 0xff#64).setWidth 32).getLsbD i =
        (decide (i < 8) && !mask.getLsbD i) := by
    have hff : (0xff#64).getLsbD i = decide (i < 8) := by
      rw [show (0xff#64) = BitVec.ofNat 64 (2 ^ 8 - 1) from rfl, BitVec.getLsbD_ofNat,
        Nat.testBit_two_pow_sub_one]
      simp [show i < 64 by omega]
    rw [BitVec.getLsbD_setWidth, BitVec.getLsbD_and, BitVec.getLsbD_not, BitVec.getLsbD_setWidth,
      hff]
    simp [hi, show i < 64 by omega, Bool.and_comm]
  generalize (~~~(mask.setWidth 64) &&& 0xff#64).setWidth 32 = inverse at hbit ⊢
  have hhigh : ∀ i, 8 ≤ i → inverse.getLsbD i = false := by
    intro i hi
    by_cases hlt : i < 32
    · rw [hbit i hlt, decide_eq_false (by omega), Bool.false_and]
    · exact BitVec.getLsbD_of_ge _ _ (not_lt.mp hlt)
  rw [popcnt_of_low (by decide) hhigh, countBitsUnset]
  congr 1
  apply List.filter_congr
  intro i hi
  have hlt := List.mem_range.mp hi
  rw [hbit i (by omega), decide_eq_true hlt, Bool.true_and]

/-! ## One cycle and the whole row -/

theorem countBitsUnset_le (mask : BitVec 8) : countBitsUnset mask ≤ 8 := by
  have hle := List.length_filter_le (fun lane => !mask.getLsbD lane) (List.range 8)
  rwa [List.length_range] at hle

theorem ofFn_toLanes {pixels : List Pixel} (h : pixels.length = 8) :
    List.ofFn (toLanes pixels) = pixels.map Pixel.word := by
  apply List.ext_getElem
  · simp [h]
  · intro i hi hi'
    have hlt : i < pixels.length := by simpa using hi'
    rw [List.getElem_ofFn, List.getElem_map, toLanes, List.getD_eq_getElem?_getD,
      List.getElem?_eq_getElem hlt, Option.getD_some]

/-- A cycle inside the row and the buffer. -/
theorem cycle_eq {row pixels : List Pixel} {x : Nat} {s : Simd.State} (hx : x + 8 ≤ row.length)
    (hroom : s.dest + 8 ≤ s.scratch.length)
    (hprev : s.prev 7 = (pixels.getD 7 Pixel.transparent).word) :
    let curr := (row.drop x).take 8
    let newMask := diffMask (shiftLanes pixels curr) curr
    ∃ scratch, storeu s.scratch s.dest (toLanes (permute curr (vpermdLut newMask))) = some scratch ∧
      Simd.cycle (row.map Pixel.word) x s =
        some
          { prev := toLanes curr
            dest := s.dest + countBitsUnset newMask
            scratch := scratch
            rleMaskBlock := s.rleMaskBlock.set (x / 8) newMask } := by
  intro curr newMask
  have hcurr : curr.length = 8 := by
    rw [List.length_take, List.length_drop]
    omega
  have hshift : (shiftLanes pixels curr).length = 8 := by
    rw [shiftLanes, List.length_cons, List.length_take, hcurr]
    rfl
  have hmask : Simd.diffMask (Simd.shifted s.prev (toLanes curr)) (toLanes curr) =
      newMask.setWidth 64 := by
    rw [shifted_toLanes hprev, diffMask_toLanes hshift hcurr]
  have hindex : (newMask.setWidth 64).toNat = newMask.toNat := by
    rw [BitVec.toNat_setWidth]
    have hlt := newMask.isLt
    omega
  have hbyte : (newMask.setWidth 64).setWidth 8 = newMask := by
    rw [BitVec.setWidth_setWidth_of_le _ (by decide), BitVec.setWidth_eq]
  refine ⟨_, storeu_of_le hroom, ?_⟩
  simp only [Simd.cycle, loadu_pixels hx, Option.bind_eq_bind, Option.bind_some]
  change (gatherVectors[(Simd.diffMask (Simd.shifted s.prev (toLanes curr))
    (toLanes curr)).toNat]?).bind _ = _
  rw [hmask, hindex, gatherVectors_getElem?, Option.bind_some, permute_toLanes,
    storeu_of_le hroom, Option.bind_some, popcnt_eq, hbyte]

/-- What is left of the cycles: the masks and pixels of `simdLoop`, in their places. -/
theorem cycles_eq (row pixels : List Pixel) {n k : Nat} {s : Simd.State}
    (hrow : 8 * (k + n) ≤ row.length) (hroom : s.dest + 8 * n ≤ s.scratch.length)
    (hblock : k + n ≤ s.rleMaskBlock.length)
    (hprev : s.prev 7 = (pixels.getD 7 Pixel.transparent).word) :
    ∃ s', Simd.cycles (row.map Pixel.word) n (8 * k) s = some s' ∧
      s'.dest = s.dest + (simdLoop n (row.drop (8 * k)) pixels).2.length ∧
      s'.scratch.length = s.scratch.length ∧
      s'.scratch.take s'.dest = s.scratch.take s.dest ++
        (simdLoop n (row.drop (8 * k)) pixels).2.map Pixel.word ∧
      s'.rleMaskBlock = s.rleMaskBlock.take k ++ (simdLoop n (row.drop (8 * k)) pixels).1 ++
        s.rleMaskBlock.drop (k + n) := by
  induction n generalizing k s pixels with
  | zero => exact ⟨s, rfl, by simp [simdLoop], rfl, by simp [simdLoop], by simp [simdLoop]⟩
  | succ n ih =>
      have hx : 8 * k + 8 ≤ row.length := by omega
      obtain ⟨scratch, hstore, hcycle⟩ := cycle_eq hx (by omega) hprev
      have hcurr : ((row.drop (8 * k)).take 8).length = 8 := by
        rw [List.length_take, List.length_drop]
        omega
      have hpacked (mask : BitVec 8) :
          (permute ((row.drop (8 * k)).take 8) (vpermdLut mask)).length = 8 := by
        rw [permute, List.length_map, vpermdLut_length]
      generalize hmask : diffMask (shiftLanes pixels ((row.drop (8 * k)).take 8))
        ((row.drop (8 * k)).take 8) = newMask at hstore hcycle
      have hcount := countBitsUnset_le newMask
      have htake := take_of_storeu hstore hcount
      have hlength := length_of_storeu hstore
      rw [ofFn_toLanes (hpacked newMask)] at htake
      obtain ⟨s', hrun, hdest, hsize, hscratch, hmasks⟩ := ih
        ((row.drop (8 * k)).take 8) (k := k + 1)
        (s := ⟨toLanes ((row.drop (8 * k)).take 8), s.dest + countBitsUnset newMask, scratch,
          s.rleMaskBlock.set (8 * k / 8) newMask⟩)
        (by omega) (by simp only [hlength]; omega) (by simp only [List.length_set]; omega) rfl
      have hnext : simdLoop (n + 1) (row.drop (8 * k)) pixels =
          (newMask :: (simdLoop n (row.drop (8 * (k + 1))) ((row.drop (8 * k)).take 8)).1,
            (permute ((row.drop (8 * k)).take 8) (vpermdLut newMask)).take
                (countBitsUnset newMask) ++
              (simdLoop n (row.drop (8 * (k + 1))) ((row.drop (8 * k)).take 8)).2) := by
        rw [simdLoop, hmask, List.drop_drop, Nat.mul_succ]
      refine ⟨s', ?_, ?_, hsize.trans hlength, ?_, ?_⟩
      · rw [Simd.cycles, hcycle, Option.bind_some]
        exact hrun
      · rw [hdest, hnext, List.length_append, List.length_take, hpacked, Nat.min_eq_left hcount,
          Nat.add_assoc]
      · rw [hscratch, htake, hnext, List.map_append, List.map_take, List.append_assoc]
      · have hk : 8 * k / 8 = k := by omega
        have hlt : k < s.rleMaskBlock.length := by omega
        have htake' : (s.rleMaskBlock.set k newMask).take (k + 1) =
            s.rleMaskBlock.take k ++ [newMask] := by
          rw [List.take_succ_eq_append_getElem (by rwa [List.length_set]),
            List.take_set_of_le (le_refl k), List.getElem_set_self]
        rw [hmasks, hnext, hk, List.drop_set_of_lt (by omega), htake', List.append_assoc (List.take k _),
          List.singleton_append, Nat.add_right_comm k 1 n]
        rfl

/-- The instructions do not leave the row, the table or a buffer of the row's size, and they fill
the masks and store the pixels of the scalar loop. -/
theorem simdInitPixRowSimd_eq {row : List Pixel} {scratch : List (BitVec 32)}
    (hrow : row.length = 256) (hscratch : scratch.length = 256) :
    ∃ out, simdInitPixRowSimd (row.map Pixel.word) scratch = some out ∧
      out.rleMask = (initPixRowCpu row).rleMask ∧
      out.scratchLen = (initPixRowCpu row).rleData.length ∧
      out.scratch.length = 256 ∧
      out.scratch.take out.scratchLen = (initPixRowCpu row).rleData.map Pixel.word := by
  obtain ⟨s, hrun, hdest, hsize, hstored, hmasks⟩ := cycles_eq row
    (List.replicate 8 Pixel.transparent) (n := 256 / 8) (k := 0)
    (s := ⟨setzero, 0, scratch, List.replicate 32 0⟩) (by omega) (by simp only; omega) (by simp) rfl
  have hrle : (simdLoop (256 / 8) row (List.replicate 8 Pixel.transparent)).2 =
      (initPixRowCpu row).rleData := by
    rw [← simdInitPixRow_eq row hrow]
    rfl
  rw [List.take_zero, List.nil_append, List.drop_zero, List.drop_of_length_le (by simp),
    List.append_nil] at hmasks
  rw [List.drop_zero, Nat.zero_add, hrle] at hdest
  rw [List.take_zero, List.nil_append, List.drop_zero, hrle] at hstored
  refine ⟨_, by rw [simdInitPixRowSimd, hrun, Option.map_some], ?_, hdest, hsize.trans hscratch,
    hstored⟩
  rw [← simdInitPixRow_eq row hrow, hmasks]
  rfl

/-- A row of runs of three pixels. -/
theorem simdInitPixRowSimd_runs :
    ∃ out, simdInitPixRowSimd
        (((List.range 256).map fun x => Pixel.mk (x / 3).toUInt8 0 0 255).map Pixel.word)
        (List.replicate 256 0) = some out ∧
      out.rleMask = (initPixRowCpu
        ((List.range 256).map fun x => Pixel.mk (x / 3).toUInt8 0 0 255)).rleMask ∧
      out.scratchLen = (initPixRowCpu
        ((List.range 256).map fun x => Pixel.mk (x / 3).toUInt8 0 0 255)).rleData.length ∧
      out.scratch.length = 256 ∧
      out.scratch.take out.scratchLen = (initPixRowCpu
        ((List.range 256).map fun x => Pixel.mk (x / 3).toUInt8 0 0 255)).rleData.map Pixel.word :=
  simdInitPixRowSimd_eq (by rw [List.length_map, List.length_range]) List.length_replicate

end CoolOnline.Delta
