import Mathlib.Data.List.Basic
import Mathlib.Data.List.OfFn
import Mathlib.Data.Fintype.Basic
import Mathlib.Tactic.FinCases

/-! # Vectors of eight lanes

The instructions on vectors of 256 bits as functions of eight lanes of 32 bits, lane 0 the lowest
in memory. Memory is a list of 32-bit words; an access beyond its end fails.
-/

namespace CoolOnline.Avx2

abbrev M256i := Fin 8 → BitVec 32

variable {memory memory' : List (BitVec 32)} {offset : Nat} {v w : M256i}

/-- `_mm256_setzero_si256`. -/
def setzero : M256i := fun _ => 0

/-- `_mm256_set_epi8`: the bytes from the highest to the lowest. -/
def setEpi8 (bytes : List (BitVec 8)) : M256i := fun lane =>
  let byte (k : Nat) : BitVec 8 := bytes.getD (31 - (4 * lane + k)) 0
  byte 3 ++ byte 2 ++ byte 1 ++ byte 0

/-- `_mm256_loadu_si256`. -/
def loadu (memory : List (BitVec 32)) (offset : Nat) : Option M256i :=
  if offset + 8 ≤ memory.length then some fun lane => memory.getD (offset + lane) 0 else none

/-- `_mm256_storeu_si256`. -/
def storeu (memory : List (BitVec 32)) (offset : Nat) (v : M256i) : Option (List (BitVec 32)) :=
  if offset + 8 ≤ memory.length then
    some (memory.take offset ++ List.ofFn v ++ memory.drop (offset + 8))
  else none

/-- `_mm256_permutevar8x32_epi32`: the lowest three bits of a control lane choose a lane. -/
def permutevar8x32 (v control : M256i) : M256i := fun lane => v (Fin.ofNat 8 (control lane).toNat)

/-- `_mm256_and_si256`. -/
def and (v w : M256i) : M256i := fun lane => v lane &&& w lane

/-- `_mm256_andnot_si256`: the first operand is inverted. -/
def andnot (v w : M256i) : M256i := fun lane => ~~~(v lane) &&& w lane

/-- `_mm256_or_si256`. -/
def or (v w : M256i) : M256i := fun lane => v lane ||| w lane

/-- `_mm256_cmpeq_epi32`. -/
def cmpeq (v w : M256i) : M256i := fun lane => if v lane = w lane then BitVec.allOnes 32 else 0

/-- `_mm256_movemask_ps`: the sign bits, lane 0 lowest. -/
def movemaskPs (v : M256i) : BitVec 32 :=
  (List.finRange 8).foldr (fun lane rest => rest <<< 1 ||| if (v lane).msb then 1 else 0) 0

/-- `_mm_popcnt_u32`. -/
def popcnt (n : BitVec 32) : Nat := ((List.range 32).filter fun i => n.getLsbD i).length

theorem append_inj {a b : Nat} {x x' : BitVec a} {y y' : BitVec b} (h : x ++ y = x' ++ y') :
    x = x' ∧ y = y' := by
  have hlow : y = y' := by
    have hbits := congrArg (BitVec.extractLsb' 0 b) h
    simpa only [BitVec.extractLsb'_append_eq_right] using hbits
  subst hlow
  exact ⟨(BitVec.append_left_inj y).mp h, rfl⟩

theorem loadu_of_le (h : offset + 8 ≤ memory.length) :
    loadu memory offset = some fun (lane : Fin 8) => memory.getD (offset + lane) 0 := if_pos h

theorem storeu_of_le (h : offset + 8 ≤ memory.length) :
    storeu memory offset v =
      some (memory.take offset ++ List.ofFn v ++ memory.drop (offset + 8)) := if_pos h

theorem storeu_eq_some (h : storeu memory offset v = some memory') :
    offset + 8 ≤ memory.length ∧
      memory' = memory.take offset ++ List.ofFn v ++ memory.drop (offset + 8) := by
  rw [storeu] at h
  split at h
  · next hfits => exact ⟨hfits, (Option.some.inj h).symm⟩
  · cases h

/-- A store leaves the size of the memory as it is. -/
theorem length_of_storeu (h : storeu memory offset v = some memory') :
    memory'.length = memory.length := by
  obtain ⟨hfits, rfl⟩ := storeu_eq_some h
  simp only [List.length_append, List.length_take, List.length_ofFn, List.length_drop]
  omega

/-- What stands before the end of the part of a store that counts. -/
theorem take_of_storeu {count : Nat} (h : storeu memory offset v = some memory')
    (hcount : count ≤ 8) :
    memory'.take (offset + count) = memory.take offset ++ (List.ofFn v).take count := by
  obtain ⟨hfits, rfl⟩ := storeu_eq_some h
  have hoffset : (memory.take offset).length = offset := by
    rw [List.length_take]
    omega
  rw [List.append_assoc, List.take_append, hoffset, List.take_of_length_le (by omega),
    Nat.add_sub_cancel_left, List.take_append_of_le_length (by simpa using hcount)]

/-- Equal lanes give the set bits. -/
theorem msb_cmpeq (lane : Fin 8) : (cmpeq v w lane).msb = decide (v lane = w lane) := by
  rw [cmpeq]
  split
  · next h =>
      rw [decide_eq_true h]
      decide
  · next h => simp [h]

/-- Only the low bits need to be counted where the others are clear. -/
theorem popcnt_of_low {n : BitVec 32} {k : Nat} (hk : k ≤ 32)
    (h : ∀ i, k ≤ i → n.getLsbD i = false) :
    popcnt n = ((List.range k).filter fun i => n.getLsbD i).length := by
  have hhigh : ((List.range (32 - k)).map (k + ·)).filter (fun i => n.getLsbD i) = [] := by
    rw [List.filter_eq_nil_iff]
    intro i hi
    obtain ⟨j, -, rfl⟩ := List.mem_map.mp hi
    rw [h (k + j) (Nat.le_add_right k j)]
    decide
  have hsplit : List.range 32 = List.range k ++ (List.range (32 - k)).map (k + ·) := by
    rw [← List.range_add, Nat.add_sub_cancel' hk]
  rw [popcnt, hsplit, List.filter_append, hhigh, List.append_nil]

/-- Vectors of bytes, one for each lane. -/
theorem setEpi8_lanes (b₀ b₁ b₂ b₃ b₄ b₅ b₆ b₇ : BitVec 8) :
    setEpi8 [0, 0, 0, b₇, 0, 0, 0, b₆, 0, 0, 0, b₅, 0, 0, 0, b₄, 0, 0, 0, b₃, 0, 0, 0, b₂,
      0, 0, 0, b₁, 0, 0, 0, b₀] =
      fun lane => ([b₀, b₁, b₂, b₃, b₄, b₅, b₆, b₇].get lane).setWidth 32 := by
  have hlow (b : BitVec 8) : (0#8 ++ 0#8 ++ 0#8 ++ b : BitVec 32) = b.setWidth 32 := by
    rw [BitVec.setWidth_eq_append (by decide)]
    rfl
  funext lane
  fin_cases lane <;> exact hlow _

end CoolOnline.Avx2
