import CoolOnline.Common.Protocol
import CoolOnline.Library.Indexed
import CoolOnline.Library.Positions

/-! # Tokens as views

`StringVector` of `common/StringVector.hpp` and `common/StringVector.cpp`: a string with tokens that
are positions and lengths in it, the functions that make them, and the accessors. Where an accessor
throws or its assertion fails there is no result.
-/

namespace CoolOnline.TokenViews

open Positions

structure StringToken where
  index : Nat
  length : Nat
deriving DecidableEq

structure StringVector where
  string : Payload
  tokens : List StringToken
deriving DecidableEq

/-- `std::string::npos`. -/
def npos : Nat := 2 ^ 64 - 1

namespace StringVector

/-! ## Making tokens -/

/-- The loop of `tokenize`, over what is left of the data from position `i` on. -/
def tokenizeLoop (data : Payload) (delimiter : Char) :
    Payload → Nat → Nat → List StringToken → Nat × Nat × List StringToken
  | [], i, start, tokens => (start, i, tokens)
  | c :: rest, i, start, tokens =>
      if c = '\n' then (start, i, tokens)
      else if c = delimiter then
        let tokens :=
          if start ≠ i ∧ data[start]? ≠ some delimiter then tokens ++ [⟨start, i - start⟩]
          else tokens
        tokenizeLoop data delimiter rest (i + 1) i tokens
      else if data[start]? = some delimiter then
        tokenizeLoop data delimiter rest (i + 1) (start + 1) tokens
      else tokenizeLoop data delimiter rest (i + 1) start tokens

/-- Tokenize delimited values until we hit new-line or the end. -/
def tokenizeData (data : Payload) (delimiter : Char) : List StringToken :=
  if data = [] ∨ data.head? = some '\x00' then []
  else
    let (start, stop, tokens) := tokenizeLoop data delimiter data 0 0 []
    if start ≠ stop ∧ data[start]? ≠ some delimiter ∧ data[start]? ≠ some '\n' then
      tokens ++ [⟨start, stop - start⟩]
    else tokens

/-- `tokenize` for characters and their number. -/
def tokenizeChars (data : Payload) (delimiter : Char) : StringVector :=
  if data = [] ∨ data.head? = some '\x00' then ⟨[], []⟩ else ⟨data, tokenizeData data delimiter⟩

/-- `tokenize` for a string. -/
def tokenize (s : Payload) (delimiter : Char) : StringVector :=
  if s = [] then ⟨[], []⟩ else ⟨s, tokenizeData s delimiter⟩

/-- The tokens from `start` on; the last one has the length up to `npos`. -/
def tokensByString (s delimiter : Payload) (hdelimiter : delimiter ≠ []) (start : Nat) :
    List StringToken :=
  match _hfind : find s delimiter start with
  | none => [⟨start, npos - start⟩]
  | some stop =>
      ⟨start, stop - start⟩ :: tokensByString s delimiter hdelimiter (stop + delimiter.length)
termination_by s.length - start
decreasing_by
  have hlength := List.length_pos_iff.mpr hdelimiter
  have hfound := find_eq_some _hfind
  omega

/-- Tokenize by the delimiter string. -/
def tokenizeByString (s delimiter : Payload) : StringVector :=
  if h : s = [] ∨ delimiter = [] then ⟨[], []⟩
  else ⟨s, tokensByString s delimiter (not_or.mp h).2 0⟩

/-- The end of the text from `start` on, without the spaces at the end. -/
def trimEnd (s : Payload) (start : Nat) : Nat → Nat
  | 0 => 0
  | n + 1 => if start < n + 1 ∧ s[n]? = some ' ' then trimEnd s start n else n + 1

theorem trimEnd_le (s : Payload) (start n : Nat) : trimEnd s start n ≤ n := by
  induction n with
  | zero => exact Nat.le_refl _
  | succ n ih =>
      rw [trimEnd]
      split
      · exact Nat.le_succ_of_le ih
      · exact Nat.le_refl _

/-- The position behind the spaces at `start`. -/
def skipSpaces (s : Payload) (length start : Nat) : Nat :=
  (firstFrom (fun i => s[i]? ≠ some ' ') length start).getD length

theorem le_skipSpaces {s : Payload} {length start : Nat} (h : start ≤ length) :
    start ≤ skipSpaces s length start := by
  rw [skipSpaces]
  cases hfirst : firstFrom (fun i => s[i]? ≠ some ' ') length start with
  | none => exact h
  | some i => exact (firstFrom_eq_some_iff.mp hfirst).1

theorem skipSpaces_le (s : Payload) (length start : Nat) : skipSpaces s length start ≤ length := by
  rw [skipSpaces]
  cases hfirst : firstFrom (fun i => s[i]? ≠ some ' ') length start with
  | none => exact Nat.le_refl _
  | some i => exact Nat.le_of_lt (firstFrom_eq_some_iff.mp hfirst).2.1

/-- The end of the token at `start`. -/
def tokenEnd (s delimiters : Payload) (length start : Nat) : Nat :=
  (findFirstOf s delimiters start).getD length

theorem le_tokenEnd (s delimiters : Payload) {length start : Nat} (h : start ≤ length) :
    start ≤ tokenEnd s delimiters length start := by
  rw [tokenEnd]
  cases hfirst : findFirstOf s delimiters start with
  | none => exact h
  | some i => exact (findFirstOf_eq_some hfirst).1

theorem tokenEnd_le {s delimiters : Payload} {length start : Nat} (h : length ≤ s.length) :
    tokenEnd s delimiters length start ≤ s.length := by
  rw [tokenEnd]
  cases hfirst : findFirstOf s delimiters start with
  | none => exact h
  | some i =>
      obtain ⟨c, hc, hat⟩ := (findFirstOf_eq_some hfirst).2.1
      exact Nat.le_of_lt (List.getElem?_eq_some_iff.mp hat).1

/-- The loop of `tokenizeAnyOf`, in front of the spaces at the end of the string. -/
def tokensByAnyOf (s delimiters : Payload) (length start : Nat) : List StringToken :=
  if hmore : start < length then
    -- ignore the leading whitespace
    let first := skipSpaces s length start
    if hleft : first = length then []
    else
      let stop := tokenEnd s delimiters length first
      -- trim the trailing whitespace
      let trimmed := trimEnd s first stop
      (if first < trimmed then [⟨first, trimmed - first⟩] else []) ++
        tokensByAnyOf s delimiters length (stop + 1)
  else []
termination_by length - start
decreasing_by
  have hfirst : start ≤ skipSpaces s length start := le_skipSpaces (Nat.le_of_lt hmore)
  have hle : skipSpaces s length start ≤ length := skipSpaces_le s length start
  have hstop := le_tokenEnd s delimiters hle
  omega

/-- Tokenize based on any of the characters in `delimiters`. -/
def tokenizeAnyOf (s delimiters : Payload) : StringVector :=
  let length := trimEnd s 0 s.length
  if length = 0 ∨ delimiters = [] then ⟨[], []⟩
  else ⟨s, tokensByAnyOf s delimiters length 0⟩

/-! ## Accessors -/

section

variable (v : StringVector)

/-- `substr` of the string. -/
def substr (token : StringToken) : Option Payload :=
  if token.index ≤ v.string.length then some ((v.string.drop token.index).take token.length)
  else none

/-- `operator[]`. Unlike std::vector, gives an empty string if index is unexpected. -/
def get (index : Nat) : Option Payload :=
  match v.tokens[index]? with
  | none => some []
  | some token => v.substr token

def getParam (token : StringToken) : Option Payload :=
  if token.index < v.string.length then v.substr token else none

/-- The loop of `cat`. -/
def catLoop (separator : Payload) : Payload → List StringToken → Option Payload
  | ret, [] => some ret
  | ret, token :: tokens =>
      (v.getParam token).bind fun param => catLoop separator (ret ++ separator ++ param) tokens

def cat (separator : Payload) (firstOffset lastOffset : Nat) : Option Payload :=
  if firstOffset ≥ v.tokens.length ∨ firstOffset > lastOffset then some []
  else
    let stop := min lastOffset (v.tokens.length - 1)
    match (v.tokens.drop firstOffset).take (stop + 1 - firstOffset) with
    | [] => some []
    | token :: tokens => (v.getParam token).bind fun param => v.catLoop separator param tokens

/-- Views are compared by their sizes first. -/
def equals (index : Nat) (string : Payload) : Bool :=
  match v.tokens[index]? with
  | none => false
  | some token =>
      token.length == string.length && (v.string.drop token.index).take token.length == string

/-- `compare` of a part of the string with a literal, which ends at its first NUL. -/
def comparesEqual (token : StringToken) (literal : Payload) : Option Bool :=
  if token.index ≤ v.string.length then
    some ((v.string.drop token.index).take literal.length == literal.takeWhile (· != '\x00'))
  else none

def startsWith (index : Nat) (literal : Payload) : Option Bool :=
  match v.tokens[index]? with
  | none => some false
  | some token =>
      if token.length ≥ literal.length then v.comparesEqual token literal else some false

def startsWithToken (token : StringToken) (literal : Payload) : Option Bool :=
  if token.index ≥ v.string.length then some false
  else if token.length ≥ literal.length then v.comparesEqual token literal else some false

/-- `equals` with a token of another vector. -/
def equalsToken (index : Nat) (other : StringVector) (otherIndex : Nat) : Option Bool :=
  match v.tokens[index]?, other.tokens[otherIndex]? with
  | some token, some otherToken =>
      (v.substr token).bind fun text => (other.substr otherToken).map fun other => text == other
  | _, _ => some false

end

/-! ## What the accessors agree on -/

/-- All accessors describe the text as that of the token. -/
structure Describes (v : StringVector) (index : Nat) (token : StringToken) (text : Payload) :
    Prop where
  get : v.get index = some text
  getParam : v.getParam token = some text
  equals (s : Payload) : v.equals index s = true ↔ text = s
  startsWith (literal : Payload) (hliteral : '\x00' ∉ literal) :
    v.startsWith index literal = some true ↔ literal <+: text
  startsWithToken (literal : Payload) (hliteral : '\x00' ∉ literal) :
    v.startsWithToken token literal = some true ↔ literal <+: text
  equalsToken (other : StringVector) (otherIndex : Nat) :
    v.equalsToken index other otherIndex = some true ↔
      otherIndex < other.tokens.length ∧ other.get otherIndex = some text

/-- The tokens are inside the string, and all accessors describe the same texts. -/
structure ViewsAgree (v : StringVector) : Prop where
  inside (token : StringToken) (h : token ∈ v.tokens) :
    token.index + token.length ≤ v.string.length
  describes (index : Nat) (token : StringToken) (h : v.tokens[index]? = some token) :
    ∃ text, Describes v index token text
  cat (separator : Payload) (firstOffset lastOffset : Nat) (hfirst : firstOffset < v.tokens.length)
    (hle : firstOffset ≤ lastOffset) :
    ∃ texts, (List.range' firstOffset
        (min lastOffset (v.tokens.length - 1) + 1 - firstOffset)).mapM v.get = some texts ∧
      v.cat separator firstOffset lastOffset = some (separator.intercalate texts)
  missing (index : Nat) (h : v.tokens.length ≤ index) :
    v.get index = some [] ∧ (∀ s, v.equals index s = false) ∧
      (∀ literal, v.startsWith index literal = some false) ∧
      ∀ separator lastOffset, v.cat separator index lastOffset = some []

/-- The calls that make a vector. -/
inductive Call
  | tokenizeChars (data : Payload) (delimiter : Char)
  | tokenize (s : Payload) (delimiter : Char)
  | tokenizeByString (s delimiter : Payload)
  | tokenizeAnyOf (s delimiters : Payload)

def Call.make : Call → StringVector
  | .tokenizeChars data delimiter => StringVector.tokenizeChars data delimiter
  | .tokenize s delimiter => StringVector.tokenize s delimiter
  | .tokenizeByString s delimiter => StringVector.tokenizeByString s delimiter
  | .tokenizeAnyOf s delimiters => StringVector.tokenizeAnyOf s delimiters

/-- Not by a delimiter string, unless there is nothing to do. -/
def Call.KeepsInside : Call → Prop
  | .tokenizeByString s delimiter => s = [] ∨ delimiter = []
  | _ => True

/-! ## Accessors of tokens inside the string -/

/-- Tokens that are not empty and inside a string of the length. -/
def Tight (length : Nat) (tokens : List StringToken) : Prop :=
  ∀ token ∈ tokens, 0 < token.length ∧ token.index + token.length ≤ length

section

variable {v : StringVector} {index : Nat} {token : StringToken}

/-- The text of a token. -/
def text (v : StringVector) (token : StringToken) : Payload :=
  (v.string.drop token.index).take token.length

theorem length_text (h : token.index + token.length ≤ v.string.length) :
    (v.text token).length = token.length := by
  rw [text, List.length_take, List.length_drop]
  omega

theorem substr_eq (h : token.index ≤ v.string.length) : v.substr token = some (v.text token) :=
  if_pos h

theorem comparesEqual_iff {literal : Payload} (hindex : token.index ≤ v.string.length)
    (hliteral : '\x00' ∉ literal) (hle : literal.length ≤ token.length) :
    v.comparesEqual token literal = some true ↔ literal <+: v.text token := by
  have hwhole : literal.takeWhile (· != '\x00') = literal := by
    rw [List.takeWhile_eq_self_iff]
    intro c hc
    exact bne_iff_ne.mpr fun heq => hliteral (heq ▸ hc)
  rw [comparesEqual, if_pos hindex, hwhole, Option.some.injEq, beq_iff_eq,
    List.prefix_iff_eq_take, text, List.take_take, Nat.min_eq_left hle, eq_comm]

theorem describes_text (hindex : v.tokens[index]? = some token) (hpos : 0 < token.length)
    (hinside : token.index + token.length ≤ v.string.length) :
    Describes v index token (v.text token) := by
  have hsubstr : v.substr token = some (v.text token) := substr_eq (by omega)
  have hlt : token.index < v.string.length := by omega
  have hstarts (literal : Payload) (hliteral : '\x00' ∉ literal) :
      (if token.length ≥ literal.length then v.comparesEqual token literal else some false) =
        some true ↔ literal <+: v.text token := by
    by_cases hle : literal.length ≤ token.length
    case pos =>
      rw [if_pos hle]
      exact comparesEqual_iff (Nat.le_of_lt hlt) hliteral hle
    case neg =>
      rw [if_neg hle]
      constructor
      · intro h
        cases h
      · intro h
        have hlength := h.length_le
        rw [length_text hinside] at hlength
        exact absurd hlength hle
  refine ⟨?get, ?getParam, fun s => ?equals, fun literal hliteral => ?startsWith,
    fun literal hliteral => ?startsWithToken, fun other otherIndex => ?equalsToken⟩
  case get =>
    rw [get, hindex]
    exact hsubstr
  case getParam => rw [getParam, if_pos hlt, hsubstr]
  case equals =>
    rw [equals, hindex]
    simp only [Bool.and_eq_true, beq_iff_eq]
    constructor
    · intro h
      exact h.2
    · intro h
      refine ⟨?_, h⟩
      rw [← h, ← length_text hinside]
  case startsWith =>
    rw [startsWith, hindex]
    exact hstarts literal hliteral
  case startsWithToken =>
    rw [startsWithToken, if_neg (by omega)]
    exact hstarts literal hliteral
  case equalsToken =>
    rw [equalsToken, hindex, get]
    cases hother : other.tokens[otherIndex]? with
    | none =>
        have hlength := List.getElem?_eq_none_iff.mp hother
        simp only [Option.some.injEq, Bool.false_eq_true, false_iff, not_and]
        omega
    | some otherToken =>
        have hlength := (List.getElem?_eq_some_iff.mp hother).1
        simp only [hsubstr, Option.bind_some, Option.map_eq_some_iff, beq_iff_eq, hlength, true_and]
        constructor
        · intro h
          obtain ⟨otherText, htext, hsame⟩ := h
          rw [htext, hsame]
        · intro h
          exact ⟨_, h, rfl⟩

theorem intercalate_append (separator a : Payload) (x : Payload) (xs : List Payload) :
    separator.intercalate ((a ++ x) :: xs) = a ++ separator.intercalate (x :: xs) := by
  cases xs <;> simp [List.intercalate]

theorem catLoop_eq (separator : Payload) {tokens : List StringToken}
    (h : Tight v.string.length tokens) (ret : Payload) :
    v.catLoop separator ret tokens =
      some (separator.intercalate (ret :: tokens.map v.text)) := by
  induction tokens generalizing ret with
  | nil => simp [catLoop, List.intercalate]
  | cons token tokens ih =>
      obtain ⟨hpos, hinside⟩ := h token List.mem_cons_self
      have hparam : v.getParam token = some (v.text token) := by
        rw [getParam, if_pos (by omega), substr_eq (by omega)]
      rw [catLoop, hparam, Option.bind_some, ih fun token ht => h token (List.mem_cons_of_mem _ ht),
        intercalate_append]
      simp [List.intercalate]

theorem viewsAgree_of_tight (h : Tight v.string.length v.tokens) : ViewsAgree v := by
  refine ⟨fun token ht => (h token ht).2, fun index token hindex => ?describes,
    fun separator firstOffset lastOffset hfirst hle => ?cat, fun index hindex => ?missing⟩
  case describes =>
    obtain ⟨hpos, hinside⟩ := h token (List.mem_of_getElem? hindex)
    exact ⟨_, describes_text hindex hpos hinside⟩
  case cat =>
    rw [cat, if_neg (by omega)]
    obtain ⟨count, hcount⟩ : ∃ count,
        min lastOffset (v.tokens.length - 1) + 1 - firstOffset = count + 1 :=
      ⟨min lastOffset (v.tokens.length - 1) - firstOffset, by omega⟩
    have hfits : firstOffset + (count + 1) ≤ v.tokens.length := by omega
    simp only [hcount]
    have htight : Tight v.string.length ((v.tokens.drop firstOffset).take (count + 1)) :=
      fun token ht => h token (List.mem_of_mem_drop (List.mem_of_mem_take ht))
    refine ⟨((v.tokens.drop firstOffset).take (count + 1)).map v.text, ?_, ?_⟩
    · have hmapM := Indexed.mapM_range'_eq v.get
        (((v.tokens.drop firstOffset).take (count + 1)).map v.text) firstOffset fun i hi => by
          rw [List.length_map, List.length_take, List.length_drop] at hi
          have hlt : firstOffset + i < v.tokens.length := by omega
          have hindex := List.getElem?_eq_getElem hlt
          obtain ⟨hpos, hinside⟩ := h _ (List.mem_of_getElem? hindex)
          rw [List.getElem?_map, List.getElem?_take_of_lt (by omega), List.getElem?_drop, hindex]
          exact (describes_text hindex hpos hinside).get
      rw [List.length_map, List.length_take, List.length_drop,
        show min (count + 1) (v.tokens.length - firstOffset) = count + 1 by omega] at hmapM
      exact hmapM
    · rw [List.drop_eq_getElem_cons hfirst, List.take_succ_cons] at htight ⊢
      obtain ⟨hpos, hinside⟩ := htight _ List.mem_cons_self
      have hparam := (describes_text (List.getElem?_eq_getElem hfirst) hpos hinside).getParam
      simp only [hparam, Option.bind_some]
      exact catLoop_eq separator (fun token ht => htight token (List.mem_cons_of_mem _ ht)) _
  case missing =>
    have hnone : v.tokens[index]? = none := List.getElem?_eq_none_iff.mpr hindex
    refine ⟨by rw [get, hnone], fun s => by rw [equals, hnone],
      fun literal => by rw [startsWith, hnone], fun separator lastOffset => ?_⟩
    rw [cat, if_pos (.inl hindex)]

end

/-! ## Where the functions put the tokens -/

theorem Tight.append {length : Nat} {tokens : List StringToken} {token : StringToken}
    (h : Tight length tokens) (hpos : 0 < token.length)
    (hinside : token.index + token.length ≤ length) : Tight length (tokens ++ [token]) := by
  intro other hmem
  cases List.mem_append.mp hmem with
  | inl hmem => exact h other hmem
  | inr hmem =>
      cases List.mem_singleton.mp hmem
      exact ⟨hpos, hinside⟩

/-- The start is never behind the position, and the tokens are in front of it. -/
theorem tokenizeLoop_tight {data : Payload} (delimiter : Char) {rest : Payload} {i start : Nat}
    {tokens : List StringToken} (hlength : i + rest.length = data.length) (hstart : start ≤ i)
    (h : Tight data.length tokens) :
    (tokenizeLoop data delimiter rest i start tokens).1 ≤
        (tokenizeLoop data delimiter rest i start tokens).2.1 ∧
      (tokenizeLoop data delimiter rest i start tokens).2.1 ≤ data.length ∧
      Tight data.length (tokenizeLoop data delimiter rest i start tokens).2.2 := by
  induction rest generalizing i start tokens with
  | nil => exact ⟨hstart, Nat.le_of_eq hlength, h⟩
  | cons c rest ih =>
      rw [List.length_cons] at hlength
      rw [tokenizeLoop]
      split
      case isTrue => exact ⟨hstart, by simp only; omega, h⟩
      case isFalse =>
        split
        case isTrue =>
          refine ih (by omega) (Nat.le_succ i) ?_
          split
          case isTrue hadd =>
            exact h.append (Nat.sub_pos_of_lt (by omega)) (by simp only; omega)
          case isFalse => exact h
        case isFalse =>
          split
          case isTrue => exact ih (by omega) (by omega) h
          case isFalse => exact ih (by omega) (by omega) h

theorem tokenizeData_tight (data : Payload) (delimiter : Char) :
    Tight data.length (tokenizeData data delimiter) := by
  have hnone : Tight data.length [] := fun token ht => absurd ht List.not_mem_nil
  rw [tokenizeData]
  split
  case isTrue => exact hnone
  case isFalse =>
    obtain ⟨hstart, hstop, htokens⟩ :=
      tokenizeLoop_tight delimiter (Nat.zero_add data.length) (Nat.le_refl 0) hnone
    generalize tokenizeLoop data delimiter data 0 0 [] = result at hstart hstop htokens ⊢
    obtain ⟨start, stop, tokens⟩ := result
    simp only at hstart hstop htokens ⊢
    split
    case isTrue hadd =>
      exact htokens.append (Nat.sub_pos_of_lt (by omega)) (by simp only; omega)
    case isFalse => exact htokens

theorem tokensByAnyOf_tight {s delimiters : Payload} {length : Nat} (hlength : length ≤ s.length)
    (start : Nat) : Tight s.length (tokensByAnyOf s delimiters length start) := by
  induction start using tokensByAnyOf.induct s delimiters length with
  | case1 start hmore first hleft =>
      rw [tokensByAnyOf, dif_pos hmore, dif_pos hleft]
      exact fun token ht => absurd ht List.not_mem_nil
  | case2 start hmore first hleft stop ih =>
      rw [tokensByAnyOf, dif_pos hmore, dif_neg hleft]
      have hstop : stop ≤ s.length := tokenEnd_le hlength
      have htrim := trimEnd_le s first stop
      intro token ht
      cases List.mem_append.mp ht with
      | inl ht =>
          split at ht
          case isTrue hadd =>
            cases List.mem_singleton.mp ht
            exact ⟨Nat.sub_pos_of_lt hadd,
              (Nat.add_sub_cancel' (Nat.le_of_lt hadd)).trans_le (htrim.trans hstop)⟩
          case isFalse => exact absurd ht List.not_mem_nil
      | inr ht => exact ih token ht
  | case3 start hmore =>
      rw [tokensByAnyOf, dif_neg hmore]
      exact fun token ht => absurd ht List.not_mem_nil

section

variable {s delimiter : Payload} (hdelimiter : delimiter ≠ []) {start stop : Nat}

theorem tokensByString_of_none (h : find s delimiter start = none) :
    tokensByString s delimiter hdelimiter start = [⟨start, npos - start⟩] := by
  rw [tokensByString]
  split
  case h_1 => rfl
  case h_2 hsome => rw [h] at hsome; cases hsome

theorem tokensByString_of_some (h : find s delimiter start = some stop) :
    tokensByString s delimiter hdelimiter start =
      ⟨start, stop - start⟩ :: tokensByString s delimiter hdelimiter (stop + delimiter.length) := by
  rw [tokensByString]
  split
  case h_1 hnone => rw [h] at hnone; cases hnone
  case h_2 hsome => rw [h] at hsome; cases hsome; rfl

/-- The last token is as long as if the string went on up to `npos`. -/
theorem exists_mem_tokensByString (hlength : s.length < npos) (hstart : start ≤ s.length) :
    ∃ token ∈ tokensByString s delimiter hdelimiter start, token.index + token.length = npos := by
  induction start using tokensByString.induct s delimiter hdelimiter with
  | case1 start hfind =>
      rw [tokensByString_of_none hdelimiter hfind]
      exact ⟨_, List.mem_singleton_self _, Nat.add_sub_cancel' (hstart.trans (Nat.le_of_lt hlength))⟩
  | case2 start stop hfind ih =>
      obtain ⟨token, hmem, hend⟩ := ih (find_eq_some hfind).2.1
      rw [tokensByString_of_some hdelimiter hfind]
      exact ⟨token, List.mem_cons_of_mem _ hmem, hend⟩

end

theorem viewsAgree_nil : ViewsAgree ⟨[], []⟩ :=
  viewsAgree_of_tight fun _ ht => absurd ht List.not_mem_nil

theorem not_viewsAgree_tokenizeByString {s delimiter : Payload} (hs : s ≠ [])
    (hdelimiter : delimiter ≠ []) (hlength : s.length < npos) :
    ¬ ViewsAgree (tokenizeByString s delimiter) := by
  intro h
  have hmake : tokenizeByString s delimiter = ⟨s, tokensByString s delimiter hdelimiter 0⟩ :=
    dif_neg (not_or.mpr ⟨hs, hdelimiter⟩)
  rw [hmake] at h
  obtain ⟨token, hmem, hend⟩ := exists_mem_tokensByString hdelimiter hlength (Nat.zero_le _)
  have hinside := h.inside token hmem
  rw [hend] at hinside
  exact absurd hlength (Nat.not_lt.mpr hinside)

/-- The string a call is about. -/
def Call.string : Call → Payload
  | .tokenizeChars data _ => data
  | .tokenize s _ => s
  | .tokenizeByString s _ => s
  | .tokenizeAnyOf s _ => s

theorem viewsAgree_iff (m : Call) (hlength : m.string.length < npos) :
    ViewsAgree m.make ↔ m.KeepsInside := by
  cases m with
  | tokenizeChars data delimiter =>
      refine iff_of_true ?_ trivial
      rw [Call.make, StringVector.tokenizeChars]
      split
      case isTrue => exact viewsAgree_nil
      case isFalse => exact viewsAgree_of_tight (tokenizeData_tight data delimiter)
  | tokenize s delimiter =>
      refine iff_of_true ?_ trivial
      rw [Call.make, StringVector.tokenize]
      split
      case isTrue => exact viewsAgree_nil
      case isFalse => exact viewsAgree_of_tight (tokenizeData_tight s delimiter)
  | tokenizeByString s delimiter =>
      by_cases hnothing : s = [] ∨ delimiter = []
      case pos =>
        refine iff_of_true ?_ hnothing
        rw [Call.make, StringVector.tokenizeByString, dif_pos hnothing]
        exact viewsAgree_nil
      case neg =>
        refine iff_of_false ?_ hnothing
        have hboth := not_or.mp hnothing
        exact not_viewsAgree_tokenizeByString hboth.1 hboth.2 hlength
  | tokenizeAnyOf s delimiters =>
      refine iff_of_true ?_ trivial
      rw [Call.make, StringVector.tokenizeAnyOf]
      split
      case isTrue => exact viewsAgree_nil
      case isFalse => exact viewsAgree_of_tight (tokensByAnyOf_tight (trimEnd_le s 0 s.length) 0)

theorem viewsAgree_anyOf :
    ViewsAgree (StringVector.tokenizeAnyOf "a , b".toList ",".toList) :=
  (viewsAgree_iff (.tokenizeAnyOf "a , b".toList ",".toList) (by decide)).mpr trivial

/-- The last token, the text `b` for `operator[]`, does not equal it. -/
theorem not_viewsAgree_byString :
    ¬ ViewsAgree (StringVector.tokenizeByString "a,b".toList ",".toList) ∧
      (StringVector.tokenizeByString "a,b".toList ",".toList).get 1 = some "b".toList ∧
      (StringVector.tokenizeByString "a,b".toList ",".toList).equals 1 "b".toList = false := by
  have hmake : StringVector.tokenizeByString "a,b".toList ",".toList =
      ⟨"a,b".toList, [⟨0, 1⟩, ⟨2, npos - 2⟩]⟩ := by
    rw [StringVector.tokenizeByString, dif_neg (by decide),
      tokensByString_of_some _ (show find _ _ _ = some 1 by decide),
      tokensByString_of_none _ (by decide)]
    rfl
  rw [hmake]
  refine ⟨fun h => ?_, by decide, by decide⟩
  exact absurd (h.inside ⟨2, npos - 2⟩ (by decide)) (by decide)

/-! ## The texts of the tokens -/

/-- What the loop has read from `start` on: a delimiter, or the field it is inside. -/
inductive Pending (data : Payload) (delimiter : Char) (rest : Payload) :
    Nat → Nat → Payload → Prop
  | delimiter (front : Payload) (h : data = front ++ delimiter :: rest) :
      Pending data delimiter rest front.length (front.length + 1) []
  | field (front field : Payload) (h : data = front ++ field ++ rest)
      (hdelimiter : delimiter ∉ field) (hline : '\n' ∉ field) :
      Pending data delimiter rest front.length (front.length + field.length) field

/-- The tokens when the loop has ended. -/
def closeTokens (data : Payload) (delimiter : Char) (start stop : Nat)
    (tokens : List StringToken) : List StringToken :=
  if start ≠ stop ∧ data[start]? ≠ some delimiter ∧ data[start]? ≠ some '\n' then
    tokens ++ [⟨start, stop - start⟩]
  else tokens

section

variable {data : Payload} {delimiter : Char} {rest : Payload} {i start : Nat} {pending : Payload}

/-- Where the start is. -/
theorem Pending.cases_start (h : Pending data delimiter rest start i pending) :
    pending = [] ∧ (start = i ∨ data[start]? = some delimiter) ∨
      Text.IsField delimiter pending ∧ start ≠ i ∧ text ⟨data, []⟩ ⟨start, i - start⟩ = pending ∧
        data[start]? ≠ some delimiter ∧ data[start]? ≠ some '\n' := by
  cases h with
  | delimiter front h => exact .inl ⟨rfl, .inr (by simp [h])⟩
  | field front _ h hdelimiter hline =>
      cases pending with
      | nil => exact .inl ⟨rfl, .inl rfl⟩
      | cons c field =>
          have hstart : data[front.length]? = some c := by simp [h]
          rw [List.mem_cons, not_or] at hdelimiter hline
          refine .inr ⟨⟨List.cons_ne_nil c field, by simp [hdelimiter]⟩, by simp, ?_, ?_, ?_⟩
          · simp [text, h]
          · simp [hstart, Ne.symm hdelimiter.1]
          · simp [hstart, Ne.symm hline.1]

/-- At the end the loop has the pending field left. -/
theorem closeTokens_texts (h : Pending data delimiter rest start i pending)
    (tokens : List StringToken) :
    (closeTokens data delimiter start i tokens).map (text ⟨data, []⟩) =
      tokens.map (text ⟨data, []⟩) ++ Text.fields delimiter pending := by
  cases h.cases_start with
  | inl hnone =>
      obtain ⟨rfl, hstart⟩ := hnone
      rw [closeTokens, if_neg (by tauto), Text.fields_nil, List.append_nil]
  | inr hfield =>
      obtain ⟨hfield, hne, htext, hchar⟩ := hfield
      rw [closeTokens, if_pos ⟨hne, hchar⟩, List.map_append, List.map_singleton, htext,
        Text.fields_of_isField hfield]

/-- A delimiter ends the field as the end does. -/
theorem closeTokens_eq (h : Pending data delimiter rest start i pending)
    (tokens : List StringToken) :
    (if start ≠ i ∧ data[start]? ≠ some delimiter then tokens ++ [⟨start, i - start⟩]
      else tokens) = closeTokens data delimiter start i tokens := by
  rw [closeTokens]
  refine if_congr ?_ rfl rfl
  cases h.cases_start with
  | inl hnone => tauto
  | inr hfield => tauto

theorem fields_pending_append (h : Pending data delimiter rest start i pending) (line : Payload) :
    Text.fields delimiter (pending ++ delimiter :: line) =
      Text.fields delimiter pending ++ Text.fields delimiter line := by
  cases h.cases_start with
  | inl hnone => rw [hnone.1, List.nil_append, Text.fields_sep_cons, Text.fields_nil, List.nil_append]
  | inr hfield =>
      rw [Text.fields_append_sep hfield.1, Text.fields_of_isField hfield.1, List.singleton_append]

theorem Pending.next_delimiter (h : Pending data delimiter (delimiter :: rest) start i pending) :
    Pending data delimiter rest i (i + 1) [] := by
  cases h with
  | delimiter front h =>
      have hdata : data = (front ++ [delimiter]) ++ delimiter :: rest := h.trans (by simp)
      have hnext := Pending.delimiter (front ++ [delimiter]) hdata
      rwa [List.length_append] at hnext
  | field front _ h hdelimiter hline =>
      have hnext := Pending.delimiter (front ++ pending) h
      rwa [List.length_append] at hnext

theorem Pending.next_char {c : Char} (h : Pending data delimiter (c :: rest) start i pending)
    (hc : c ≠ delimiter) (hline : c ≠ '\n') :
    Pending data delimiter rest (if data[start]? = some delimiter then start + 1 else start) (i + 1)
      (pending ++ [c]) := by
  cases h with
  | delimiter front h =>
      have hdata : data = (front ++ [delimiter]) ++ [c] ++ rest := h.trans (by simp)
      have hnext := Pending.field (front ++ [delimiter]) [c] hdata
        (List.mem_singleton.not.mpr (Ne.symm hc)) (List.mem_singleton.not.mpr (Ne.symm hline))
      rw [if_pos (by simp [h])]
      rwa [List.length_append] at hnext
  | field front _ h hdelimiter hline' =>
      have hdata : data = front ++ (pending ++ [c]) ++ rest := h.trans (by simp)
      have hdelimiter' : delimiter ∉ pending ++ [c] := by simp [hdelimiter, Ne.symm hc]
      have hnext := Pending.field front (pending ++ [c]) hdata hdelimiter'
        (by simp [hline', Ne.symm hline])
      have hstart : data[front.length]? ≠ some delimiter := by
        cases pending with
        | nil => simp [h, hc]
        | cons first field => simp [h, Ne.symm (List.ne_of_not_mem_cons hdelimiter)]
      rw [if_neg hstart, Nat.add_assoc]
      rwa [List.length_append] at hnext

theorem tokenizeLoop_texts (h : Pending data delimiter rest start i pending)
    (tokens : List StringToken) :
    (closeTokens data delimiter (tokenizeLoop data delimiter rest i start tokens).1
        (tokenizeLoop data delimiter rest i start tokens).2.1
        (tokenizeLoop data delimiter rest i start tokens).2.2).map (text ⟨data, []⟩) =
      tokens.map (text ⟨data, []⟩) ++
        Text.fields delimiter (pending ++ rest.takeWhile (· != '\n')) := by
  induction rest generalizing i start tokens pending with
  | nil =>
      rw [tokenizeLoop, List.takeWhile_nil, List.append_nil]
      exact closeTokens_texts h tokens
  | cons c rest ih =>
      rw [tokenizeLoop]
      by_cases hline : c = '\n'
      case pos =>
        rw [if_pos hline, List.takeWhile_cons_of_neg (by simp [hline]), List.append_nil]
        exact closeTokens_texts h tokens
      rw [if_neg hline, List.takeWhile_cons_of_pos (by simp [hline])]
      by_cases hc : c = delimiter
      case pos =>
        rw [if_pos hc]
        subst hc
        simp only [closeTokens_eq h]
        rw [ih h.next_delimiter, closeTokens_texts h, fields_pending_append h, List.append_assoc,
          List.nil_append]
      case neg =>
        have hnext := ih (h.next_char hc hline) tokens
        rw [List.append_assoc, List.singleton_append] at hnext
        rw [if_neg hc]
        split
        case isTrue hstart =>
          rw [if_pos hstart] at hnext
          exact hnext
        case isFalse hstart =>
          rw [if_neg hstart] at hnext
          exact hnext

end

/-- The texts of the tokens are the tokens of the first line. -/
theorem map_text_tokenizeData (data : Payload) (delimiter : Char) :
    (tokenizeData data delimiter).map (text ⟨data, []⟩) =
      CoolOnline.StringVector.tokenize data delimiter := by
  rw [tokenizeData, CoolOnline.StringVector.tokenize]
  by_cases hnul : data.head? = some '\x00'
  case pos => rw [if_pos (.inr hnul), if_pos hnul, List.map_nil]
  case neg =>
    rw [if_neg hnul]
    by_cases hnil : data = []
    case pos => rw [if_pos (.inl hnil), hnil, List.takeWhile_nil, Text.fields_nil, List.map_nil]
    case neg =>
      have hpending : Pending data delimiter data 0 0 [] :=
        .field [] [] rfl List.not_mem_nil List.not_mem_nil
      rw [if_neg (not_or.mpr ⟨hnil, hnul⟩)]
      exact tokenizeLoop_texts hpending []

end StringVector

end CoolOnline.TokenViews
