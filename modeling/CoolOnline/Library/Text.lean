import Mathlib.Data.List.Basic

/-! # Texts of separated fields

Fields separated by a character, where empty fields do not count, and decimal numbers as they
are printed and read back from the start of a text.
-/

namespace CoolOnline.Text

/-- Texts are compared character by character. -/
instance instLawfulBEqText : LawfulBEq (List Char) := inferInstance

/-- The non-empty fields between the separators. -/
def fields (sep : Char) (text : List Char) : List (List Char) :=
  (text.splitOn sep).filter fun field => !field.isEmpty

/-- A field that splits off as it is. -/
def IsField (sep : Char) (field : List Char) : Prop := field ≠ [] ∧ sep ∉ field

instance (sep : Char) (field : List Char) : Decidable (IsField sep field) :=
  inferInstanceAs (Decidable (_ ∧ _))

section Fields

variable {sep : Char} {field text : List Char}

@[simp] theorem fields_nil : fields sep [] = [] := by
  simp [fields]

theorem fields_of_isField (h : IsField sep field) : fields sep field = [field] := by
  obtain ⟨hne, hsep⟩ := h
  simp [fields, List.splitOn_eq_singleton hsep, hne]

theorem fields_append_sep (h : IsField sep field) :
    fields sep (field ++ sep :: text) = field :: fields sep text := by
  obtain ⟨hne, hsep⟩ := h
  simp [fields, List.splitOn_append_cons_self_of_not_mem hsep, hne]

theorem fields_sep_cons : fields sep (sep :: text) = fields sep text := by
  have h := List.splitOn_append_cons_self (a := sep) ([] : List Char) text
  simp only [List.nil_append, List.splitOn_nil] at h
  simp [fields, h]

/-- Fields with a separator after each one. -/
theorem fields_flatMap {fs : List (List Char)} (h : ∀ f ∈ fs, IsField sep f) :
    fields sep (fs.flatMap fun f => f ++ [sep]) = fs := by
  induction fs with
  | nil => simp
  | cons f fs ih =>
      have hf : IsField sep f := h f (by simp)
      have hfs := ih fun g hg => h g (by simp [hg])
      simp only [List.flatMap_cons, List.append_assoc, List.singleton_append]
      rw [fields_append_sep hf, hfs]

/-- Fields with a separator between each two. -/
theorem fields_intercalate {fs : List (List Char)} (h : ∀ f ∈ fs, IsField sep f) :
    fields sep ([sep].intercalate fs) = fs := by
  induction fs with
  | nil => simp
  | cons f fs ih =>
      have hf : IsField sep f := h f (by simp)
      have hfs := ih fun g hg => h g (by simp [hg])
      cases fs with
      | nil => simpa using fields_of_isField hf
      | cons g gs =>
          rw [List.intercalate_cons_cons, List.append_assoc, List.singleton_append,
            fields_append_sep hf, hfs]

/-- Fields with a separator before each one but the first. -/
theorem intercalate_cons (f : List Char) (fs : List (List Char)) :
    [sep].intercalate (f :: fs) = f ++ fs.flatMap fun g => sep :: g := by
  induction fs generalizing f with
  | nil => simp
  | cons g gs ih =>
      rw [List.intercalate_cons_cons, ih g]
      simp

/-- Fields with a separator before each one. -/
theorem fields_flatMap_cons {fs : List (List Char)} (h : ∀ f ∈ fs, IsField sep f) :
    fields sep (fs.flatMap fun f => sep :: f) = fs := by
  cases fs with
  | nil => simp
  | cons f fs =>
      have hfields := fields_intercalate h
      rwa [intercalate_cons, ← fields_sep_cons] at hfields

theorem mem_intercalate {fs : List (List Char)} {c : Char} (h : c ∈ [sep].intercalate fs) :
    c = sep ∨ ∃ f ∈ fs, c ∈ f := by
  induction fs with
  | nil => simp at h
  | cons f fs ih =>
      cases fs with
      | nil => exact Or.inr ⟨f, by simp, by simpa using h⟩
      | cons g gs =>
          simp only [List.intercalate_cons_cons, List.append_assoc, List.singleton_append,
            List.mem_append, List.mem_cons] at h
          rcases h with h | h | h
          · exact Or.inr ⟨f, by simp, h⟩
          · exact Or.inl h
          · rcases ih h with h | ⟨e, he, hc⟩
            · exact Or.inl h
            · exact Or.inr ⟨e, List.mem_cons_of_mem _ he, hc⟩

/-- The pieces hold the characters of the text, the separators left out. -/
theorem mem_splitOn {c : Char} (hfield : field ∈ text.splitOn sep) (hc : c ∈ field) :
    c ≠ sep ∧ c ∈ text := by
  induction text generalizing field with
  | nil =>
      simp only [List.splitOn_nil, List.mem_singleton] at hfield
      simp [hfield] at hc
  | cons d text ih =>
      rw [List.splitOn_cons_eq_if_modifyHead] at hfield
      by_cases hd : d = sep
      · simp only [hd, BEq.rfl, if_true, List.mem_cons] at hfield
        rcases hfield with rfl | hfield
        · simp at hc
        · exact ⟨(ih hfield hc).1, List.mem_cons_of_mem _ (ih hfield hc).2⟩
      · simp only [beq_iff_eq, hd, if_false] at hfield
        cases hpieces : text.splitOn sep with
        | nil => exact absurd hpieces (List.splitOn_ne_nil sep text)
        | cons first rest =>
            rw [hpieces] at ih
            simp only [hpieces, List.modifyHead_cons, List.mem_cons] at hfield
            rcases hfield with rfl | hfield
            · rcases List.mem_cons.mp hc with rfl | hc
              · exact ⟨hd, by simp⟩
              · exact ⟨(ih (by simp) hc).1, List.mem_cons_of_mem _ (ih (by simp) hc).2⟩
            · have hrest := ih (List.mem_cons_of_mem _ hfield) hc
              exact ⟨hrest.1, List.mem_cons_of_mem _ hrest.2⟩

theorem mem_of_mem_fields {c : Char} (hfield : field ∈ fields sep text) (hc : c ∈ field) :
    c ∈ text :=
  (mem_splitOn (List.mem_filter.mp hfield).1 hc).2

theorem isField_of_mem_fields (hfield : field ∈ fields sep text) : IsField sep field := by
  obtain ⟨hmem, hne⟩ := List.mem_filter.mp hfield
  constructor
  · simpa using hne
  · intro hsep
    exact (mem_splitOn hmem hsep).1 rfl

end Fields

/-- A text cut where a property ends. -/
theorem span_append {p : Char → Bool} {before after : List Char} (hp : ∀ c ∈ before, p c = true)
    (hstop : ∀ c ∈ after.head?, p c = false) :
    (before ++ after).takeWhile p = before ∧ (before ++ after).dropWhile p = after := by
  rw [List.takeWhile_append_of_pos hp, List.dropWhile_append_of_pos hp]
  cases after with
  | nil => simp
  | cons c after => simp [hstop c (by simp)]

/-- The first line, and what is behind its line break. -/
def cutLine (text : List Char) : Option (List Char × List Char) :=
  match text.dropWhile (· != '\n') with
  | [] => none
  | _ :: rest => some (text.takeWhile (· != '\n'), rest)

/-- The first character that counts, behind others that do not. -/
theorem findIdx_append_cons {p : Char → Bool} {before : List Char} {c : Char}
    (hp : ∀ b ∈ before, p b = false) (hc : p c = true) (after : List Char) :
    (before ++ c :: after).findIdx p = before.length := by
  rw [List.findIdx_append, List.findIdx_eq_length.mpr hp, if_neg (Nat.lt_irrefl _),
    List.findIdx_cons, hc]
  exact Nat.zero_add _

theorem ne_of_not_mem {line : List Char} {c : Char} (h : c ∉ line) :
    ∀ b ∈ line, (b == c) = false := by
  intro b hb
  rw [beq_eq_false_iff_ne]
  rintro rfl
  exact h hb

theorem cutLine_append {line : List Char} (h : '\n' ∉ line) (rest : List Char) :
    cutLine (line ++ ('\n' :: rest)) = some (line, rest) := by
  have hline : ∀ c ∈ line, (c != '\n') = true := by
    intro c hc
    rw [bne_iff_ne]
    exact ne_of_mem_of_not_mem hc h
  have hstop : ∀ c ∈ ('\n' :: rest).head?, (c != '\n') = false := by
    intro c hc
    cases hc
    rfl
  obtain ⟨htake, hdrop⟩ := span_append hline hstop
  rw [cutLine, hdrop, htake]

theorem cutLine_of_not_mem {line : List Char} (h : '\n' ∉ line) : cutLine line = none := by
  have hline : ∀ c ∈ line, (c != '\n') = true := by
    intro c hc
    rw [bne_iff_ne]
    exact ne_of_mem_of_not_mem hc h
  have hdrop : (line ++ []).dropWhile (· != '\n') = [] := List.dropWhile_append_of_pos hline
  rw [List.append_nil] at hdrop
  rw [cutLine, hdrop]

/-- A line has come, or a part of it. -/
theorem cutLine_cases {p line rest : List Char} (h : '\n' ∉ line)
    (hp : p <+: line ++ ('\n' :: rest)) :
    cutLine p = none ∧ p.length ≤ line.length ∨
      ∃ q, p = line ++ ('\n' :: q) ∧ q <+: rest := by
  rcases Nat.lt_or_ge line.length p.length with hlt | hge
  · right
    obtain ⟨q, rfl⟩ := List.prefix_of_prefix_length_le (List.prefix_append _ _) hp (Nat.le_of_lt hlt)
    rw [List.prefix_append_right_inj] at hp
    cases q with
    | nil =>
        rw [List.append_nil] at hlt
        exact absurd hlt (Nat.lt_irrefl _)
    | cons c q =>
        obtain ⟨rfl, hq⟩ := List.cons_prefix_cons.mp hp
        exact ⟨q, rfl, hq⟩
  · left
    have hshort := List.prefix_of_prefix_length_le hp (List.prefix_append _ _) hge
    exact ⟨cutLine_of_not_mem fun hmem => h (hshort.mem hmem), hge⟩

/-! ## Decimal numbers -/

def isSpace (c : Char) : Bool := c == ' ' || ('\t' ≤ c && c ≤ '\r')

def leadingNat (text : List Char) : Option Nat :=
  match text.takeWhile Char.isDigit with
  | [] => none
  | digits => some (Nat.ofDigitChars 10 digits 0)

/-- The number a text starts with, after blanks. -/
def leadingInt (text : List Char) : Option Int :=
  match text.dropWhile isSpace with
  | '-' :: rest => (leadingNat rest).map fun n => -(n : Int)
  | '+' :: rest => (leadingNat rest).map Int.ofNat
  | rest => (leadingNat rest).map Int.ofNat

def decimal : Int → List Char
  | .ofNat n => Nat.toDigits 10 n
  | .negSucc n => '-' :: Nat.toDigits 10 (n + 1)

/-- A text that does not go on with a digit. -/
def NoDigit (text : List Char) : Prop := ∀ c ∈ text.head?, c.isDigit = false

section Decimal

variable {rest : List Char}

theorem isDigit_of_mem_toDigits {n : Nat} {c : Char} (hc : c ∈ Nat.toDigits 10 n) :
    c.isDigit = true :=
  Nat.isDigit_of_mem_toDigits (by decide) (by decide) hc

theorem takeWhile_isDigit_of_noDigit (h : NoDigit rest) : rest.takeWhile Char.isDigit = [] := by
  cases rest with
  | nil => rfl
  | cons c rest => simp [h c (by simp)]

theorem leadingNat_toDigits_append (n : Nat) (h : NoDigit rest) :
    leadingNat (Nat.toDigits 10 n ++ rest) = some n := by
  have hdigits : (Nat.toDigits 10 n ++ rest).takeWhile Char.isDigit = Nat.toDigits 10 n := by
    rw [List.takeWhile_append_of_pos fun c hc => isDigit_of_mem_toDigits hc,
      takeWhile_isDigit_of_noDigit h, List.append_nil]
  rw [leadingNat, hdigits]
  split
  · next hnil => exact absurd hnil Nat.toDigits_ne_nil
  · simp

theorem isSpace_of_isDigit {c : Char} (h : c.isDigit = true) : isSpace c = false := by
  simp only [Char.isDigit, Bool.and_eq_true, decide_eq_true_eq, ge_iff_le] at h
  have hspace : c ≠ ' ' := by
    rintro rfl
    exact absurd h.1 (by decide)
  have htab : ¬ c ≤ '\r' := fun hle => absurd (UInt32.le_trans h.1 hle) (by decide)
  simp [isSpace, hspace, htab]

theorem leadingInt_of_isDigit {c : Char} {text : List Char} (h : c.isDigit = true) :
    leadingInt (c :: text) = (leadingNat (c :: text)).map Int.ofNat := by
  have hminus : c ≠ '-' := by
    rintro rfl
    simp at h
  have hplus : c ≠ '+' := by
    rintro rfl
    simp at h
  simp [leadingInt, isSpace_of_isDigit h, hminus, hplus]

/-- Digits are read to their end. -/
theorem leadingNat_of_digits {digits : List Char} (hne : digits ≠ [])
    (hdigits : ∀ c ∈ digits, c.isDigit = true) :
    leadingNat digits = some (Nat.ofDigitChars 10 digits 0) := by
  have hall : digits.takeWhile Char.isDigit = digits := by
    have hend : (digits ++ []).takeWhile Char.isDigit = digits ++ [].takeWhile Char.isDigit :=
      List.takeWhile_append_of_pos hdigits
    simpa using hend
  rw [leadingNat, hall]
  cases digits with
  | nil => exact absurd rfl hne
  | cons c digits => rfl

theorem leadingInt_of_digits {digits : List Char} (hne : digits ≠ [])
    (hdigits : ∀ c ∈ digits, c.isDigit = true) :
    leadingInt digits = some ((Nat.ofDigitChars 10 digits 0 : Nat) : Int) := by
  cases digits with
  | nil => exact absurd rfl hne
  | cons c digits =>
      rw [leadingInt_of_isDigit (hdigits c List.mem_cons_self), leadingNat_of_digits hne hdigits]
      rfl

/-- A printed number is read back, whatever follows it that is no digit. -/
theorem leadingInt_decimal_append (n : Int) (h : NoDigit rest) :
    leadingInt (decimal n ++ rest) = some n := by
  cases n with
  | ofNat n =>
      have hnat := leadingNat_toDigits_append n h
      cases hn : Nat.toDigits 10 n with
      | nil => exact absurd hn Nat.toDigits_ne_nil
      | cons c digits =>
          have hc : c.isDigit = true := isDigit_of_mem_toDigits (n := n) (by simp [hn])
          rw [hn] at hnat
          simp only [decimal, hn, List.cons_append] at hnat ⊢
          simp [leadingInt_of_isDigit hc, hnat]
  | negSucc n =>
      have hnat := leadingNat_toDigits_append (n + 1) h
      have hminus : isSpace '-' = false := by decide
      simp [leadingInt, decimal, hminus, hnat, Int.negSucc_eq]

theorem leadingInt_decimal (n : Int) : leadingInt (decimal n) = some n := by
  have hnil : NoDigit [] := by simp [NoDigit]
  simpa using leadingInt_decimal_append n hnil

theorem mem_decimal {n : Int} {c : Char} (hc : c ∈ decimal n) : c = '-' ∨ c.isDigit = true := by
  cases n with
  | ofNat n => exact Or.inr (isDigit_of_mem_toDigits hc)
  | negSucc n =>
      rcases List.mem_cons.mp hc with hc | hc
      · exact Or.inl hc
      · exact Or.inr (isDigit_of_mem_toDigits hc)

theorem decimal_ne_nil (n : Int) : decimal n ≠ [] := by
  cases n with
  | ofNat n => exact Nat.toDigits_ne_nil
  | negSucc n => simp [decimal]

end Decimal

end CoolOnline.Text
