import Mathlib.Algebra.Order.Ring.Int
import CoolOnline.Common.Protocol

/-! # Base 64

`Base64::Encode` and `Base64::Decode` of `common/base64.hpp`.
-/

namespace CoolOnline.Base64

def encodingTable : Payload :=
  "ABCDEFGHIJKLMNOPQRSTUVWXYZabcdefghijklmnopqrstuvwxyz0123456789+/".toList

/-- 64 is no digit; the second half of the table is not reached by a `char`. -/
def decodingTable : List Nat :=
  [64, 64, 64, 64, 64, 64, 64, 64, 64, 64, 64, 64, 64, 64, 64, 64,
   64, 64, 64, 64, 64, 64, 64, 64, 64, 64, 64, 64, 64, 64, 64, 64,
   64, 64, 64, 64, 64, 64, 64, 64, 64, 64, 64, 62, 64, 64, 64, 63,
   52, 53, 54, 55, 56, 57, 58, 59, 60, 61, 64, 64, 64, 64, 64, 64,
   64,  0,  1,  2,  3,  4,  5,  6,  7,  8,  9, 10, 11, 12, 13, 14,
   15, 16, 17, 18, 19, 20, 21, 22, 23, 24, 25, 64, 64, 64, 64, 64,
   64, 26, 27, 28, 29, 30, 31, 32, 33, 34, 35, 36, 37, 38, 39, 40,
   41, 42, 43, 44, 45, 46, 47, 48, 49, 50, 51, 64, 64, 64, 64, 64]

def digit (n : Nat) : Char := encodingTable.getD n '\x00'

/-- The digits of three bytes. -/
def firstDigit (a : UInt8) : Char := digit ((a.toNat >>> 2) &&& 0x3F)

def secondDigit (a b : UInt8) : Char :=
  digit (((a.toNat &&& 0x3) <<< 4) ||| ((b.toNat &&& 0xF0) >>> 4))

def thirdDigit (b c : UInt8) : Char :=
  digit (((b.toNat &&& 0xF) <<< 2) ||| ((c.toNat &&& 0xC0) >>> 6))

def fourthDigit (c : UInt8) : Char := digit (c.toNat &&& 0x3F)

/-- The loop over three bytes at a time, and what follows it. -/
def encodeLoop : List UInt8 → Payload
  | a :: b :: c :: data =>
      [firstDigit a, secondDigit a b, thirdDigit b c, fourthDigit c] ++ encodeLoop data
  | [a, b] => [firstDigit a, secondDigit a b, thirdDigit b 0, '=']
  | [a] => [firstDigit a, secondDigit a 0, '=', '=']
  | [] => []

/-- With less than two bytes, `in_len - 2` is past the end, and so is what the loop reads. -/
def encode (data : List UInt8) : Option Payload :=
  if data.length < 2 then none else some (encodeLoop data)

/-- The value of a digit. -/
def value (c : Char) : Option Nat := if c = '=' then some 0 else decodingTable[c.toNat]?

/-- The loop over four digits at a time. -/
def decodeLoop : Payload → Option (List UInt8)
  | a :: b :: c :: d :: text => do
      let a ← value a
      let b ← value b
      let c ← value c
      let d ← value d
      let triple := (a <<< 18) + (b <<< 12) + (c <<< 6) + d
      let out ← decodeLoop text
      some ([UInt8.ofNat ((triple >>> 16) &&& 0xFF), UInt8.ofNat ((triple >>> 8) &&& 0xFF),
        UInt8.ofNat (triple &&& 0xFF)] ++ out)
  | _ => some []

def sizeError : String := "Input data size is not a multiple of 4"

/-- There is nothing to look at in an empty text. -/
def decode (text : Payload) : Option (Except String (List UInt8)) :=
  let inLen := text.length
  if inLen % 4 ≠ 0 then some (.error sizeError)
  else if inLen = 0 then none
  else
    let outLen := inLen / 4 * 3 - (if text[inLen - 1]? = some '=' then 1 else 0) -
      (if text[inLen - 2]? = some '=' then 1 else 0)
    (decodeLoop text).map fun out => .ok (out.take outLen)

/-! ## Digits -/

/-- A character of the alphabet, for a number. -/
def IsDigit (c : Char) (n : Nat) : Prop := value c = some n ∧ c ≠ '='

theorem isDigit_digit {n : Nat} (h : n < 64) : IsDigit (digit n) n := by
  have hall : ∀ n : Fin 64, value (digit n) = some n.val ∧ digit n ≠ '=' := by
    decide +kernel
  exact hall ⟨n, h⟩

/-- The numbers that the digits stand for. -/
theorem digits_arith (a b c : Nat) (ha : a < 256) (hb : b < 256) (hc : c < 256) :
    (a >>> 2) &&& 0x3F = a / 4 ∧
      ((a &&& 0x3) <<< 4) ||| ((b &&& 0xF0) >>> 4) = a % 4 * 16 + b / 16 ∧
      ((b &&& 0xF) <<< 2) ||| ((c &&& 0xC0) >>> 6) = b % 16 * 4 + c / 64 ∧
      c &&& 0x3F = c % 64 := by
  have hmask₂ (x : Nat) : x &&& 0x3 = x % 4 := Nat.and_two_pow_sub_one_eq_mod x 2
  have hmask₄ (x : Nat) : x &&& 0xF = x % 16 := Nat.and_two_pow_sub_one_eq_mod x 4
  have hmask₆ (x : Nat) : x &&& 0x3F = x % 64 := Nat.and_two_pow_sub_one_eq_mod x 6
  have hhigh : (b &&& 0xF0) >>> 4 = b / 16 := by
    have hmask : 0xF0 >>> 4 = 0xF := rfl
    rw [Nat.shiftRight_and_distrib, hmask, hmask₄, Nat.shiftRight_eq_div_pow]
    omega
  have htop : (c &&& 0xC0) >>> 6 = c / 64 := by
    have hmask : 0xC0 >>> 6 = 0x3 := rfl
    rw [Nat.shiftRight_and_distrib, hmask, hmask₂, Nat.shiftRight_eq_div_pow]
    omega
  refine ⟨?_, ?_, ?_, hmask₆ c⟩
  · rw [hmask₆, Nat.shiftRight_eq_div_pow]
    omega
  · rw [hhigh, ← Nat.shiftLeft_add_eq_or_of_lt (by omega), hmask₂, Nat.shiftLeft_eq]
  · rw [htop, ← Nat.shiftLeft_add_eq_or_of_lt (by omega), hmask₄, Nat.shiftLeft_eq]

/-- The bytes that four digits stand for. -/
theorem triple_arith (a b c : Nat) (ha : a < 256) (hb : b < 256) (hc : c < 256) :
    let triple := ((a / 4) <<< 18) + ((a % 4 * 16 + b / 16) <<< 12) +
      ((b % 16 * 4 + c / 64) <<< 6) + c % 64
    (triple >>> 16) &&& 0xFF = a ∧ (triple >>> 8) &&& 0xFF = b ∧ triple &&& 0xFF = c := by
  intro triple
  have htriple : triple = a * 65536 + b * 256 + c := by
    simp only [triple, Nat.shiftLeft_eq]
    omega
  have hmask (x : Nat) : x &&& 0xFF = x % 256 := Nat.and_two_pow_sub_one_eq_mod x 8
  rw [htriple, hmask, hmask, hmask, Nat.shiftRight_eq_div_pow, Nat.shiftRight_eq_div_pow]
  omega

theorem isDigit_digits (a b c : UInt8) :
    IsDigit (firstDigit a) (a.toNat / 4) ∧
      IsDigit (secondDigit a b) (a.toNat % 4 * 16 + b.toNat / 16) ∧
      IsDigit (thirdDigit b c) (b.toNat % 16 * 4 + c.toNat / 64) ∧
      IsDigit (fourthDigit c) (c.toNat % 64) := by
  have ha := a.toNat_lt
  have hb := b.toNat_lt
  have hc := c.toNat_lt
  obtain ⟨h₁, h₂, h₃, h₄⟩ := digits_arith a.toNat b.toNat c.toNat ha hb hc
  rw [firstDigit, secondDigit, thirdDigit, fourthDigit, h₁, h₂, h₃, h₄]
  exact ⟨isDigit_digit (by omega), isDigit_digit (by omega), isDigit_digit (by omega),
    isDigit_digit (by omega)⟩

/-! ## Round trip -/

theorem decodeLoop_quad {a b c d : Char} {n₁ n₂ n₃ n₄ : Nat} {x y z : UInt8} {t : Payload}
    (ha : value a = some n₁) (hb : value b = some n₂) (hc : value c = some n₃)
    (hd : value d = some n₄)
    (hbytes : let triple := (n₁ <<< 18) + (n₂ <<< 12) + (n₃ <<< 6) + n₄
      (triple >>> 16) &&& 0xFF = x.toNat ∧ (triple >>> 8) &&& 0xFF = y.toNat ∧
        triple &&& 0xFF = z.toNat) :
    decodeLoop (a :: b :: c :: d :: t) = (decodeLoop t).map fun out => x :: y :: z :: out := by
  obtain ⟨hx, hy, hz⟩ := hbytes
  simp only [decodeLoop, ha, hb, hc, hd, Option.bind_eq_bind, Option.bind_some, hx, hy, hz,
    UInt8.ofNat_toNat]
  cases decodeLoop t <;> rfl

/-- So many `=` and zero bytes fill up what is missing. -/
def padding (data : List UInt8) : Nat := (3 - data.length % 3) % 3

/-- What is encoded ends in the padding, and is decoded to the data with zeros for it. -/
theorem encodeLoop_spec (data : List UInt8) :
    (∃ front, encodeLoop data = front ++ List.replicate (padding data) '=' ∧
        (∀ c ∈ front, c ≠ '=') ∧ (data ≠ [] → 2 ≤ front.length)) ∧
      (encodeLoop data).length = (data.length + 2) / 3 * 4 ∧
      decodeLoop (encodeLoop data) = some (data ++ List.replicate (padding data) 0) := by
  induction data using encodeLoop.induct with
  | case1 a b c data ih =>
      obtain ⟨⟨front, hfront, hne, -⟩, hlength, hdecode⟩ := ih
      obtain ⟨⟨h₁, hne₁⟩, ⟨h₂, hne₂⟩, ⟨h₃, hne₃⟩, ⟨h₄, hne₄⟩⟩ := isDigit_digits a b c
      have hpadding : padding (a :: b :: c :: data) = padding data := by
        simp only [padding, List.length_cons]
        omega
      rw [hpadding]
      refine ⟨⟨[firstDigit a, secondDigit a b, thirdDigit b c, fourthDigit c] ++ front, ?_, ?_, ?_⟩,
        ?_, ?_⟩
      · rw [encodeLoop, hfront, List.append_assoc]
      · simp only [List.forall_mem_append, List.forall_mem_cons, List.not_mem_nil, false_implies,
          implies_true, and_true]
        exact ⟨⟨hne₁, hne₂, hne₃, hne₄⟩, hne⟩
      · simp
      · rw [encodeLoop, List.length_append, hlength]
        simp only [List.length_cons, List.length_nil]
        omega
      · have hquad := decodeLoop_quad (t := encodeLoop data) h₁ h₂ h₃ h₄
          (triple_arith _ _ _ a.toNat_lt b.toNat_lt c.toNat_lt)
        rw [hdecode] at hquad
        exact hquad
  | case2 a b =>
      obtain ⟨⟨h₁, hne₁⟩, ⟨h₂, hne₂⟩, ⟨h₃, hne₃⟩, -⟩ := isDigit_digits a b 0
      refine ⟨⟨[firstDigit a, secondDigit a b, thirdDigit b 0], rfl, ?_, by simp⟩,
        by simp [encodeLoop], ?_⟩
      · simp [hne₁, hne₂, hne₃]
      · have h₄ : value '=' = some ((0 : UInt8).toNat % 64) := by decide
        rw [encodeLoop, decodeLoop_quad h₁ h₂ h₃ h₄
          (triple_arith _ _ _ a.toNat_lt b.toNat_lt (UInt8.toNat_lt 0))]
        rfl
  | case3 a =>
      obtain ⟨⟨h₁, hne₁⟩, ⟨h₂, hne₂⟩, -, -⟩ := isDigit_digits a 0 0
      refine ⟨⟨[firstDigit a, secondDigit a 0], rfl, ?_, by simp⟩, by simp [encodeLoop], ?_⟩
      · simp [hne₁, hne₂]
      · have h₃ : value '=' = some ((0 : UInt8).toNat % 16 * 4 + (0 : UInt8).toNat / 64) := by decide
        have h₄ : value '=' = some ((0 : UInt8).toNat % 64) := by decide
        rw [encodeLoop, decodeLoop_quad h₁ h₂ h₃ h₄
          (triple_arith _ _ _ a.toNat_lt (UInt8.toNat_lt 0) (UInt8.toNat_lt 0))]
        rfl
  | case4 => exact ⟨⟨[], rfl, by simp, by simp⟩, rfl, rfl⟩

/-- Two bytes or more are encoded to text of the alphabet, four characters for three bytes or a part
of them, and decoded again; for less than two there is no text. -/
theorem encode_decode (data : List UInt8) :
    (data.length < 2 → encode data = none) ∧
      (2 ≤ data.length → ∃ text, encode data = some text ∧
        text.length = (data.length + 2) / 3 * 4 ∧ decode text = some (.ok data)) := by
  refine ⟨fun h => if_pos h, ?_⟩
  intro h
  have hne : data ≠ [] := by
    rintro rfl
    cases h
  obtain ⟨⟨front, hfront, hdigits, htwo⟩, hlength, hdecode⟩ := encodeLoop_spec data
  refine ⟨encodeLoop data, if_neg (by omega), hlength, ?_⟩
  have hpositive := htwo hne
  have hall := congrArg List.length hfront
  simp only [List.length_append, List.length_replicate] at hall
  -- the last characters are padding, or digits
  have hends (k : Nat) (hk : k < 2) : (encodeLoop data)[(encodeLoop data).length - (k + 1)]? =
      some '=' ↔ k < padding data := by
    by_cases hpad : k < padding data
    · rw [hfront, List.getElem?_append_right (by simp; omega), List.getElem?_replicate]
      simp only [hpad, iff_true, List.length_append, List.length_replicate]
      rw [if_pos (by omega)]
    · have hfrontLt : front.length + padding data - (k + 1) < front.length := by omega
      simp only [hpad, iff_false]
      rw [hall, hfront, List.getElem?_append_left hfrontLt, List.getElem?_eq_getElem hfrontLt]
      simpa using hdigits _ (List.getElem_mem hfrontLt)
  have hout : (encodeLoop data).length / 4 * 3 - (if 0 < padding data then 1 else 0) -
      (if 1 < padding data then 1 else 0) = data.length := by
    rw [hlength]
    have hpadding : padding data = (3 - data.length % 3) % 3 := rfl
    obtain h0 | h1 | h2 : padding data = 0 ∨ padding data = 1 ∨ padding data = 2 := by omega
    · simp only [h0, Nat.lt_irrefl, Nat.not_lt_zero, if_false]
      omega
    · simp only [h1, Nat.zero_lt_one, Nat.lt_irrefl, if_true, if_false]
      omega
    · simp only [h2, Nat.zero_lt_two, Nat.one_lt_two, if_true]
      omega
  have hmod : (encodeLoop data).length % 4 = 0 := by omega
  have hsome : (encodeLoop data).length ≠ 0 := by omega
  simp only [decode, hmod, hsome, ne_eq, not_true_eq_false, if_false, hdecode, Option.map_some,
    (hends 0 (by omega)), (hends 1 (by omega)), hout, List.take_left]

theorem encode_decode_four : ∃ text, encode [0, 127, 128, 255] = some text ∧
    text.length = 8 ∧ decode text = some (.ok [0, 127, 128, 255]) :=
  (encode_decode [0, 127, 128, 255]).2 (by decide)

end CoolOnline.Base64
