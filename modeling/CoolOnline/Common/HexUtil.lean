import CoolOnline.Common.Protocol

/-! # Hexadecimal numbers

`HexUtil::hexDigitFromChar` of `common/HexUtil.hpp`, and the numbers that loops over it read.
-/

namespace CoolOnline.HexUtil

def hexDigitFromChar (c : Char) : Option Nat :=
  if '0' ≤ c ∧ c ≤ '9' then some (c.toNat - '0'.toNat)
  else if 'a' ≤ c ∧ c ≤ 'f' then some (c.toNat - 'a'.toNat + 10)
  else if 'A' ≤ c ∧ c ≤ 'F' then some (c.toNat - 'A'.toNat + 10)
  else none

def isHexDigit (c : Char) : Bool := (hexDigitFromChar c).isSome

/-- The number that the digits, read one by one, add up to. -/
def hexValue (digits : Payload) : Nat :=
  digits.foldl (fun n c => n * 16 + (hexDigitFromChar c).getD 0) 0

theorem zero_le_of_isHexDigit {c : Char} (h : isHexDigit c = true) : '0' ≤ c := by
  simp only [isHexDigit, hexDigitFromChar] at h
  split_ifs at h with hdigit hlower hupper
  · exact hdigit.1
  · exact UInt32.le_trans (by decide) hlower.1
  · exact UInt32.le_trans (by decide) hupper.1
  · cases h

theorem isSpace_of_isHexDigit {c : Char} (h : isHexDigit c = true) : Text.isSpace c = false := by
  have hzero := zero_le_of_isHexDigit h
  have hspace : c ≠ ' ' := by
    rintro rfl
    exact absurd hzero (by decide)
  have htab : ¬ c ≤ '\r' := fun hle => absurd (UInt32.le_trans hzero hle) (by decide)
  simp [Text.isSpace, hspace, htab]

theorem hexDigitFromChar_digitChar {d : Nat} (h : d < 16) :
    hexDigitFromChar d.digitChar = some d := by
  have hall : ∀ d : Fin 16, hexDigitFromChar d.val.digitChar = some d.val := by decide
  exact hall ⟨d, h⟩

/-- A number that is written in hexadecimal digits, as `std::hex` does, is read again. -/
theorem hexValue_toDigits (n : Nat) :
    hexValue (Nat.toDigits 16 n) = n ∧ ∀ c ∈ Nat.toDigits 16 n, isHexDigit c = true := by
  induction n using Nat.strongRecOn with
  | ind n ih =>
      rcases Nat.lt_or_ge n 16 with hlt | hge
      · have hdigit := hexDigitFromChar_digitChar hlt
        rw [Nat.toDigits_of_lt_base hlt]
        simp [hexValue, isHexDigit, hdigit]
      · obtain ⟨hvalue, hdigits⟩ := ih (n / 16) (by omega)
        have hdigit := hexDigitFromChar_digitChar (Nat.mod_lt n (by decide : 0 < 16))
        rw [Nat.toDigits_of_base_le (by decide) hge]
        constructor
        · rw [hexValue] at hvalue ⊢
          rw [List.foldl_append, hvalue, List.foldl_cons, List.foldl_nil, hdigit, Option.getD_some]
          omega
        · intro c hc
          rcases List.mem_append.mp hc with hc | hc
          · exact hdigits c hc
          · rw [List.mem_singleton.mp hc, isHexDigit, hdigit]
            rfl

end CoolOnline.HexUtil
