import CoolOnline.Library.Text
import Mathlib.Data.List.TakeWhile

/-! # Where a leading number ends

The number a text starts with as its sign and its digits, what is left of the text behind it, and
what more text changes of it.
-/

namespace CoolOnline.Text

/-- A text without the sign that it starts with. -/
def unsigned : List Char → List Char
  | '-' :: rest => rest
  | '+' :: rest => rest
  | rest => rest

/-- The text of the digits and what comes behind them. -/
def numeral (text : List Char) : List Char := unsigned (text.dropWhile isSpace)

def isNegative (text : List Char) : Bool := (text.dropWhile isSpace).head? == some '-'

/-- What is left of a text behind the number that it starts with. -/
def behindNumber (text : List Char) : List Char := (numeral text).dropWhile Char.isDigit

/-- A number by its sign. -/
def withSign (negative : Bool) (n : Nat) : Int := if negative then -(n : Int) else n

section

variable {text more digits : List Char}

theorem unsigned_append {c : Char} (rest more : List Char) :
    unsigned (c :: rest ++ more) = unsigned (c :: rest) ++ more := by
  rw [List.cons_append]
  by_cases hminus : c = '-'
  · rw [hminus]
    rfl
  · by_cases hplus : c = '+'
    · rw [hplus]
      rfl
    · simp [unsigned, hminus, hplus]

theorem leadingInt_eq (text : List Char) :
    leadingInt text = (leadingNat (numeral text)).map (withSign (isNegative text)) := by
  rw [leadingInt, numeral, isNegative]
  cases text.dropWhile isSpace with
  | nil => rfl
  | cons c rest =>
      by_cases hminus : c = '-'
      · rw [hminus]
        cases hnat : leadingNat rest <;> simp [unsigned, withSign, hnat]
      · by_cases hplus : c = '+'
        · rw [hplus]
          rfl
        · have hsign : withSign ((c :: rest).head? == some '-') = Int.ofNat := by
            funext n
            simp [withSign, hminus]
          rw [hsign]
          simp [unsigned, hminus, hplus]

theorem unsigned_of_isDigit {c : Char} (h : c.isDigit = true) (rest : List Char) :
    unsigned (c :: rest) = c :: rest := by
  have hminus : c ≠ '-' := fun heq => by simp [heq] at h
  have hplus : c ≠ '+' := fun heq => by simp [heq] at h
  simp [unsigned, hminus, hplus]

/-- A printed number has its digits behind its sign. -/
theorem exists_digits (n : Int) :
    ∃ c rest, decimal n = c :: rest ∧ isSpace c = false ∧
      ∀ d ∈ unsigned (c :: rest), d.isDigit = true := by
  cases n with
  | ofNat n =>
      obtain ⟨c, rest, hdigits⟩ := List.exists_cons_of_ne_nil (Nat.toDigits_ne_nil (n := n) (b := 10))
      have hall (d : Char) (hd : d ∈ c :: rest) : d.isDigit = true :=
        isDigit_of_mem_toDigits (hdigits ▸ hd)
      have hc := hall c List.mem_cons_self
      refine ⟨c, rest, hdigits, isSpace_of_isDigit hc, ?_⟩
      rwa [unsigned_of_isDigit hc]
  | negSucc n =>
      exact ⟨'-', Nat.toDigits 10 (n + 1), rfl, by decide, fun d hd => isDigit_of_mem_toDigits hd⟩

theorem leadingNat_append (h : text.dropWhile Char.isDigit ≠ []) :
    leadingNat (text ++ more) = leadingNat text := by
  have hsame : (text ++ more).takeWhile Char.isDigit = text.takeWhile Char.isDigit := by
    induction text with
    | nil => exact absurd rfl h
    | cons c rest ih =>
        rw [List.cons_append]
        by_cases hc : c.isDigit = true
        · rw [List.takeWhile_cons_of_pos hc, List.takeWhile_cons_of_pos hc,
            ih (by rwa [List.dropWhile_cons_of_pos hc] at h)]
        · rw [List.takeWhile_cons_of_neg hc, List.takeWhile_cons_of_neg hc]
  rw [leadingNat, hsame]
  rfl

theorem leadingNat_of_all (h : text.dropWhile Char.isDigit = []) (hne : text ≠ []) :
    leadingNat text = some (Nat.ofDigitChars 10 text 0) := by
  have hall : text.takeWhile Char.isDigit = text :=
    List.takeWhile_eq_self_iff.mpr (List.dropWhile_eq_nil_iff.mp h)
  rw [leadingNat, hall]
  cases text with
  | nil => exact absurd rfl hne
  | cons c rest => rfl

/-- Blanks do not end where the text goes on with something else. -/
theorem dropWhile_append_of_ne_nil {p : Char → Bool} (h : text.dropWhile p ≠ []) :
    (text ++ more).dropWhile p = text.dropWhile p ++ more := by
  induction text with
  | nil => exact absurd rfl h
  | cons c rest ih =>
      rw [List.cons_append]
      by_cases hc : p c = true
      · rw [List.dropWhile_cons_of_pos hc] at h ⊢
        rw [List.dropWhile_cons_of_pos hc, ih h]
      · rw [List.dropWhile_cons_of_neg hc, List.dropWhile_cons_of_neg hc, List.cons_append]

/-- Behind a printed number there is nothing. -/
theorem behindNumber_decimal (n : Int) : behindNumber (decimal n) = [] := by
  obtain ⟨c, rest, hdecimal, hspace, hdigits⟩ := exists_digits n
  rw [behindNumber, numeral, hdecimal, List.dropWhile_cons_of_neg (by simp [hspace])]
  exact List.dropWhile_eq_nil_iff.mpr hdigits

theorem numeral_append (h : text.dropWhile isSpace ≠ []) (more : List Char) :
    numeral (text ++ more) = numeral text ++ more ∧ isNegative (text ++ more) = isNegative text := by
  rw [numeral, isNegative, dropWhile_append_of_ne_nil h, numeral, isNegative]
  cases hrest : text.dropWhile isSpace with
  | nil => exact absurd hrest h
  | cons c rest => exact ⟨unsigned_append rest more, rfl⟩

/-- A number that ends in the text is not changed by more text. -/
theorem leadingInt_append (h : behindNumber text ≠ []) :
    leadingInt (text ++ more) = leadingInt text := by
  have hrest : text.dropWhile isSpace ≠ [] := by
    intro hnil
    rw [behindNumber, numeral, hnil] at h
    exact h rfl
  obtain ⟨hnumeral, hsign⟩ := numeral_append hrest more
  rw [leadingInt_eq, leadingInt_eq, hnumeral, hsign, leadingNat_append h]

/-- Digits behind a text that ends with its number make it longer. -/
theorem leadingInt_append_digits (h : behindNumber text = [])
    (hdigits : ∀ c ∈ digits, c.isDigit = true) (hne : digits ≠ []) :
    leadingInt (text ++ digits) =
      some (withSign (isNegative text) (Nat.ofDigitChars 10 (numeral text ++ digits) 0)) := by
  have hparts : numeral (text ++ digits) = numeral text ++ digits ∧
      isNegative (text ++ digits) = isNegative text := by
    cases hrest : text.dropWhile isSpace with
    | cons c rest => exact numeral_append (by simp [hrest]) digits
    | nil =>
        cases digits with
        | nil => exact absurd rfl hne
        | cons d digits =>
            have hd := hdigits d List.mem_cons_self
            have hminus : d ≠ '-' := fun heq => by simp [heq] at hd
            have hall : (text ++ d :: digits).dropWhile isSpace = d :: digits := by
              rw [List.dropWhile_append, hrest]
              simp [isSpace_of_isDigit hd]
            rw [numeral, isNegative, hall, numeral, isNegative, hrest]
            exact ⟨unsigned_of_isDigit hd digits, by simp [hminus]⟩
  have hall : (numeral text ++ digits).dropWhile Char.isDigit = [] := by
    rw [List.dropWhile_eq_nil_iff]
    intro c hc
    cases List.mem_append.mp hc with
    | inl hbefore => exact List.dropWhile_eq_nil_iff.mp h c hbefore
    | inr hmore => exact hdigits c hmore
  rw [leadingInt_eq, hparts.1, hparts.2, leadingNat_of_all hall (by simp [hne])]
  rfl

theorem leadingInt_of_behindNumber (h : behindNumber text = []) (hne : numeral text ≠ []) :
    leadingInt text =
      some (withSign (isNegative text) (Nat.ofDigitChars 10 (numeral text) 0)) := by
  rw [leadingInt_eq, leadingNat_of_all h hne]
  rfl

theorem ofDigitChars_append_digit (digits : List Char) {d : Nat} (hd : d < 10) :
    Nat.ofDigitChars 10 (digits ++ [d.digitChar]) 0 = 10 * Nat.ofDigitChars 10 digits 0 + d := by
  rw [Nat.ofDigitChars_append, Nat.ofDigitChars_cons_digitChar_of_lt_ten hd,
    Nat.ofDigitChars_nil]

theorem le_ofDigitChars_append (digits more : List Char) :
    Nat.ofDigitChars 10 digits 0 ≤ Nat.ofDigitChars 10 (digits ++ more) 0 := by
  rw [Nat.ofDigitChars_append, Nat.ofDigitChars_eq_ofDigitChars_zero (l := more)]
  have hpos := Nat.pow_pos (n := more.length) (show 0 < 10 by decide)
  have hle := Nat.le_mul_of_pos_left (Nat.ofDigitChars 10 digits 0) hpos
  omega

/-- A number at the end of a text grows with more text, or stays. -/
theorem leadingInt_append_of_behindNumber (h : behindNumber text = []) (hne : numeral text ≠ [])
    (more : List Char) :
    ∃ n, Nat.ofDigitChars 10 (numeral text) 0 ≤ n ∧
      leadingInt (text ++ more) = some (withSign (isNegative text) n) := by
  have hrest : text.dropWhile isSpace ≠ [] := by
    intro hnil
    rw [numeral, hnil] at hne
    exact hne rfl
  obtain ⟨hnumeral, hsign⟩ := numeral_append hrest more
  have hall : ∀ c ∈ numeral text, c.isDigit = true := List.dropWhile_eq_nil_iff.mp h
  refine ⟨_, le_ofDigitChars_append (numeral text) (more.takeWhile Char.isDigit), ?_⟩
  rw [leadingInt_eq, hnumeral, hsign, leadingNat, List.takeWhile_append_of_pos hall]
  cases hdigits : numeral text ++ more.takeWhile Char.isDigit with
  | nil => exact absurd (List.append_eq_nil_iff.mp hdigits).1 hne
  | cons c rest => rfl

end

end CoolOnline.Text
