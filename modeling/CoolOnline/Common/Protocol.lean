import CoolOnline.Library.Text
import Mathlib.Algebra.Order.Ring.Int
import Mathlib.Data.Char
import Mathlib.Data.List.Lex
import Mathlib.Data.List.TakeWhile

/-! # Protocol messages

`StringVector` of `common/StringVector.hpp`, the token readers of `common/Protocol.hpp` and the
number conversions they rest on. A message is the list of its characters.
-/

namespace CoolOnline

abbrev Payload := List Char

/-- A value stored in an `int`. -/
def toInt32 (n : Int) : Int := n.bmod (2 ^ 32)

/-- The range of an `int`. -/
def IsInt32 (n : Int) : Prop := -2 ^ 31 ≤ n ∧ n < 2 ^ 31

instance (n : Int) : Decidable (IsInt32 n) := inferInstanceAs (Decidable (_ ∧ _))

theorem toInt32_of_isInt32 {n : Int} (h : IsInt32 n) : toInt32 n = n := by
  obtain ⟨hlo, hhi⟩ := h
  exact Int.bmod_eq_of_le (by omega) (by omega)

theorem isInt32_toInt32 (n : Int) : IsInt32 (toInt32 n) := by
  have hlo := Int.le_bmod (x := n) (m := 2 ^ 32) (by decide)
  have hhi := Int.bmod_lt (x := n) (m := 2 ^ 32) (by decide)
  simp only [IsInt32, toInt32]
  omega

theorem emod_toInt32 (n : Int) : toInt32 n % 2 ^ 32 = n % 2 ^ 32 := Int.bmod_emod

/-- `strtol` with base 10: a `long`, if there is a number. -/
def strtol (text : Payload) : Option Int :=
  (Text.leadingInt text).map fun n => max (-2 ^ 63) (min n (2 ^ 63 - 1))

def atoi (text : Payload) : Int := toInt32 ((strtol text).getD 0)

theorem strtol_decimal_append {n : Int} (hn : IsInt32 n) {rest : Payload}
    (hrest : Text.NoDigit rest) : strtol (Text.decimal n ++ rest) = some n := by
  obtain ⟨hlo, hhi⟩ := hn
  simp only [strtol, Text.leadingInt_decimal_append n hrest, Option.map_some, Option.some.injEq]
  omega

theorem strtol_decimal {n : Int} (hn : IsInt32 n) : strtol (Text.decimal n) = some n := by
  have hnil : Text.NoDigit [] := by simp [Text.NoDigit]
  simpa using strtol_decimal_append hn hnil

theorem atoi_decimal_append {n : Int} (hn : IsInt32 n) {rest : Payload}
    (hrest : Text.NoDigit rest) : atoi (Text.decimal n ++ rest) = n := by
  simp [atoi, strtol_decimal_append hn hrest, toInt32_of_isInt32 hn]

/-- `Util::i32FromString`. -/
def i32FromString (text : Payload) : Option Int :=
  (Text.leadingInt text).bind fun n =>
    if -2 ^ 63 ≤ n ∧ n < 2 ^ 63 then some (toInt32 n) else none

theorem i32FromString_decimal {n : Int} (hlo : -2 ^ 63 ≤ n) (hhi : n < 2 ^ 63) :
    i32FromString (Text.decimal n) = some (toInt32 n) := by
  simp only [i32FromString, Text.leadingInt_decimal, Option.bind_some]
  rw [if_pos ⟨hlo, hhi⟩]

namespace StringVector

/-- The tokens of the first line. -/
def tokenize (text : Payload) (delimiter : Char) : List Payload :=
  if text.head? = some '\x00' then [] else Text.fields delimiter (text.takeWhile (· != '\n'))

def equals (tokens : List Payload) (index : Nat) (string : Payload) : Bool :=
  tokens[index]? == some string

def cat (tokens : List Payload) (separator : Char) (firstOffset : Nat) : Payload :=
  [separator].intercalate (tokens.drop firstOffset)

/-- A token of a one-line message. -/
def IsToken (token : Payload) : Prop := Text.IsField ' ' token ∧ '\n' ∉ token

instance (token : Payload) : Decidable (IsToken token) := inferInstanceAs (Decidable (_ ∧ _))

theorem IsToken.append_of_forall {name value : Payload} (hname : IsToken name)
    (hvalue : ∀ c ∈ value, c ≠ ' ' ∧ c ≠ '\n') : IsToken (name ++ value) := by
  obtain ⟨⟨hne, hsep⟩, hline⟩ := hname
  refine ⟨⟨by simp [hne], ?_⟩, ?_⟩
  · simp only [List.mem_append, not_or]
    exact ⟨hsep, fun h => (hvalue _ h).1 rfl⟩
  · simp only [List.mem_append, not_or]
    exact ⟨hline, fun h => (hvalue _ h).2 rfl⟩

theorem IsToken.ne_of_mem {token : Payload} (h : IsToken token) {c : Char} (hc : c ∈ token) :
    c ≠ ' ' ∧ c ≠ '\n' := by
  obtain ⟨⟨-, hsep⟩, hline⟩ := h
  constructor
  · rintro rfl
    exact hsep hc
  · rintro rfl
    exact hline hc

theorem isToken_of_mem_tokenize {text token : Payload} (h : token ∈ tokenize text ' ') :
    IsToken token := by
  simp only [tokenize] at h
  split at h
  · simp at h
  · refine ⟨Text.isField_of_mem_fields h, fun hline => ?_⟩
    have hmem := Text.mem_of_mem_fields h hline
    simpa using List.mem_takeWhile_imp hmem

theorem tokenize_eq_fields {text : Payload} (hline : '\n' ∉ text)
    (hnul : text.head? ≠ some '\x00') (delimiter : Char) :
    tokenize text delimiter = Text.fields delimiter text := by
  have hall : ∀ c ∈ text, (c != '\n') = true := fun c hc => by
    have hne : c ≠ '\n' := by
      rintro rfl
      exact hline hc
    simpa using hne
  have hwhole : text.takeWhile (· != '\n') = text := List.takeWhile_eq_self_iff.mpr hall
  simp [tokenize, hwhole, hnul]

/-- Numbers and separators are no line ends. -/
theorem tokenize_numbers {text : Payload} {delimiter : Char} (hsep : delimiter ≠ '\n')
    (hnul : delimiter ≠ '\x00')
    (h : ∀ c ∈ text, c = delimiter ∨ c = '-' ∨ c.isDigit = true) :
    tokenize text delimiter = Text.fields delimiter text := by
  apply tokenize_eq_fields
  · intro hmem
    rcases h _ hmem with heq | heq | hdigit
    · exact hsep heq.symm
    · exact absurd heq (by decide)
    · exact absurd hdigit (by decide)
  · intro hhead
    rcases h _ (List.mem_of_head? hhead) with heq | heq | hdigit
    · exact hnul heq.symm
    · exact absurd heq (by decide)
    · exact absurd hdigit (by decide)

/-- A message made of tokens has these tokens. -/
theorem tokenize_intercalate {tokens : List Payload} (h : ∀ token ∈ tokens, IsToken token)
    (hnul : ([' '].intercalate tokens).head? ≠ some '\x00') :
    tokenize ([' '].intercalate tokens) ' ' = tokens := by
  have hline : '\n' ∉ [' '].intercalate tokens := by
    intro hmem
    rcases Text.mem_intercalate hmem with hsep | ⟨token, ht, hc⟩
    · exact absurd hsep (by decide)
    · exact (h token ht).2 hc
  rw [tokenize_eq_fields hline hnul, Text.fields_intercalate fun token ht => (h token ht).1]

end StringVector

namespace COOLProtocol

/-- The value of the token `name=value`. -/
def getTokenString (token name : Payload) : Option Payload :=
  if (name ++ ['=']).isPrefixOf token then some (token.drop (name.length + 1)) else none

/-- The value of the token `name=number`. -/
def getTokenInteger (token name : Payload) : Option Int :=
  if (name ++ ['=']).isPrefixOf token then
    (strtol (token.drop (name.length + 1))).map toInt32
  else none

/-- The first token `name=value`. -/
def tokenString (tokens : List Payload) (name : Payload) : Option Payload :=
  tokens.findSome? fun token => getTokenString token name

def tokenInteger (tokens : List Payload) (name : Payload) : Option Int :=
  tokens.findSome? fun token => getTokenInteger token name

theorem tokenString_cons (token : Payload) (tokens : List Payload) (name : Payload) :
    tokenString (token :: tokens) name = (getTokenString token name).or (tokenString tokens name) := by
  cases h : getTokenString token name <;> simp [tokenString, h]

theorem tokenInteger_cons (token : Payload) (tokens : List Payload) (name : Payload) :
    tokenInteger (token :: tokens) name =
      (getTokenInteger token name).or (tokenInteger tokens name) := by
  cases h : getTokenInteger token name <;> simp [tokenInteger, h]

/-- The search of `getTokenStringFromMessage`, with the character before the rest of the message
and the number of characters it skips after an occurrence of the name. -/
def searchToken (name : Payload) : Option Char → Nat → Payload → Option Payload
  | _, _, [] => none
  | _, skip + 1, c :: rest => searchToken name (some c) skip rest
  | before, 0, c :: rest =>
      if name.isPrefixOf (c :: rest) then
        let after := (c :: rest).drop name.length
        if (before = none ∨ before = some ' ') ∧ after.head? = some '=' then
          some (after.tail.takeWhile fun c => c != ' ' && c != '\n')
        else searchToken name (some c) (name.length - 1) rest
      else searchToken name (some c) 0 rest

def getTokenStringFromMessage (message name : Payload) : Option Payload :=
  if message.length > name.length + 1 then searchToken name none 0 message else none

def getTokenIntegerFromMessage (message name : Payload) : Option Int :=
  tokenInteger (StringVector.tokenize message ' ') name

/-- The text before the first blank. -/
def getFirstToken (message : Payload) : Payload := message.takeWhile (· != ' ')

end COOLProtocol

end CoolOnline
