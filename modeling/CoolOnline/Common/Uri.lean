import CoolOnline.Common.HexUtil
import CoolOnline.Library.Search

/-! # Percent coding

`Uri::encode` and `Uri::decode` of `common/Uri.cpp`, and the query parameters that callers take
from a `Poco::URI`. What Poco does is a parameter, of which its documentation is assumed.
-/

namespace CoolOnline

structure PocoURI where
  encode (str reserved : Payload) : Payload
  /-- Nothing for a syntax error, which is thrown. -/
  decode (str : Payload) : Option Payload
  /-- Of the URI that is built from the text; building it and reading it may throw. -/
  getQueryParameters (uri : Payload) : Option (List (Payload × Payload))

namespace Uri

def reserved : Payload := ",/?:@&=+$#".toList

def encode (poco : PocoURI) (uri : Payload) : Payload := poco.encode uri reserved

def decode (poco : PocoURI) (uri : Payload) : Option Payload := poco.decode uri

end Uri

namespace PocoURI

/-- A plus sign in a query is a blank. -/
def plusAsSpace (c : Char) : Char := if c = '+' then ' ' else c

/-- Behind a last `&` nothing comes. -/
def queryParts (query : Payload) : List Payload :=
  let parts := (query.map plusAsSpace).splitOn '&'
  if parts.getLast? = some [] then parts.dropLast else parts

def nameAndValue (part : Payload) : Payload × Payload :=
  (Search.cutAt ['='] part).getD (part, [])

def decodePair (decode : Payload → Option Payload) (pair : Payload × Payload) :
    Option (Payload × Payload) := do
  let name ← decode pair.1
  let value ← decode pair.2
  pure (name, value)

/-- What a URI has for a query: its part up to the `#`, and what is behind that. -/
def beforeHash (text : Payload) : Payload := text.takeWhile (· != '#')

def behindHash (text : Payload) : Payload := (text.dropWhile (· != '#')).tail

/-- The names and values of a query, still encoded. -/
def queryPairs (query : Payload) : List (Payload × Payload) := (queryParts query).map nameAndValue

/-- What is documented of `Poco::URI`. -/
structure Documented (poco : PocoURI) : Prop where
  decode_encode (text : Payload) : Uri.decode poco (Uri.encode poco text) = some text
  /-- Reserved characters are escaped. -/
  not_mem_encode (text : Payload) (c : Char) (h : c ∈ Uri.reserved) : c ∉ Uri.encode poco text
  decode_plain (text : Payload) (h : '%' ∉ text) : Uri.decode poco text = some text
  decode_append (front back decoded : Payload) (h : Uri.decode poco front = some decoded) :
    Uri.decode poco (front ++ back) = (Uri.decode poco back).map (decoded ++ ·)
  /-- Of a reference that begins with its path the path and the fragment are decoded. The query is
  split at `&` and `=`, and each name and each value is decoded once. -/
  query (path tail : Payload) (hstart : path.head? = some '/') (hpath : '?' ∉ path ∧ '#' ∉ path) :
    poco.getQueryParameters (path ++ '?' :: tail) =
      if (Uri.decode poco path).isSome ∧ (Uri.decode poco (behindHash tail)).isSome then
        (queryPairs (beforeHash tail)).mapM (decodePair (Uri.decode poco))
      else none

def illegal : Payload := "%<>\x7b\x7d|\\\"^`!*'()$,[]".toList

/-- Characters that are in no URI are escaped as well, the percent sign by one. -/
def EscapesIllegal (poco : PocoURI) : Prop :=
  ∀ text, ∀ c ∈ illegal, c ≠ '%' → c ∉ Uri.encode poco text

section Queries

variable {first rest name value : Payload}

theorem queryParts_append (h : '&' ∉ first) :
    queryParts (first ++ '&' :: rest) = first.map plusAsSpace :: queryParts rest := by
  have hmap : (first ++ '&' :: rest).map plusAsSpace =
      first.map plusAsSpace ++ '&' :: rest.map plusAsSpace := by
    rw [List.map_append, List.map_cons]
    rfl
  have hfirst : '&' ∉ first.map plusAsSpace := by
    intro hmem
    rcases List.mem_map.mp hmem with ⟨c, hc, heq⟩
    rw [plusAsSpace] at heq
    split at heq
    · exact absurd heq (by decide)
    · exact h (heq ▸ hc)
  have hne : (rest.map plusAsSpace).splitOn '&' ≠ [] := List.splitOn_ne_nil _ _
  rw [queryParts, hmap, List.splitOn_append_cons_self_of_not_mem hfirst]
  simp only [queryParts, List.getLast?_cons_of_ne_nil hne, List.dropLast_cons_of_ne_nil hne]
  split <;> rfl

theorem nameAndValue_append (h : '=' ∉ name) :
    nameAndValue (name ++ '=' :: value) = (name, value) := by
  have hfirst : Search.FirstAt ['='] name := by
    apply Search.firstAt_of_not_occurs (List.not_mem_nil)
    exact fun hoccurs => h (hoccurs.subset (List.mem_singleton_self '='))
  have hcut := Search.cutAt_of_firstAt hfirst value
  rw [List.singleton_append] at hcut
  rw [nameAndValue, hcut, Option.getD_some]

end Queries

/-! ## Percent coding as Poco does it -/

def isUnreserved (c : Char) : Bool := c.isAlphanum || "-_.~".toList.contains c

/-- A character stands for a byte. -/
def isEscaped (reserved : Payload) (c : Char) : Bool :=
  !isUnreserved c && c.toNat < 256 &&
    (c ≤ ' ' || '\x7f' ≤ c || illegal.contains c || reserved.contains c)

def upperDigit (d : Nat) : Char := d.digitChar.toUpper

def escape (reserved : Payload) (c : Char) : Payload :=
  if isEscaped reserved c then ['%', upperDigit (c.toNat / 16), upperDigit (c.toNat % 16)] else [c]

def unescape : Payload → Option Payload
  | [] => some []
  | c :: rest =>
      if c = '%' then
        match rest with
        | hi :: lo :: rest => do
            let hi ← HexUtil.hexDigitFromChar hi
            let lo ← HexUtil.hexDigitFromChar lo
            let decoded ← unescape rest
            pure (Char.ofNat (hi * 16 + lo) :: decoded)
        | _ => none
      else (unescape rest).map (c :: ·)

/-- Poco's coding, and its query parameters of a URI that is a path, a query and a fragment. -/
def percentCoding : PocoURI where
  encode str reserved := str.flatMap (escape reserved)
  decode := unescape
  getQueryParameters uri :=
    let hierarchy := (beforeHash uri).takeWhile (· != '?')
    if (unescape hierarchy).isSome ∧ (unescape (behindHash uri)).isSome then
      (queryPairs ((beforeHash uri).dropWhile (· != '?')).tail).mapM (decodePair unescape)
    else none

theorem hexDigitFromChar_upperDigit {d : Nat} (h : d < 16) :
    HexUtil.hexDigitFromChar (upperDigit d) = some d := by
  have hall : ∀ d : Fin 16, HexUtil.hexDigitFromChar (upperDigit d.val) = some d.val := by decide
  exact hall ⟨d, h⟩

theorem ne_upperDigit {c : Char} (h : c ∈ Uri.reserved ++ illegal) {d : Nat} (hd : d < 16) :
    c ≠ upperDigit d := by
  have hall : ∀ d : Fin 16, upperDigit d.val ∉ Uri.reserved ++ illegal := by decide
  rintro rfl
  exact hall ⟨d, hd⟩ h

theorem isEscaped_percent (reserved : Payload) : isEscaped reserved '%' = true := by
  have hunreserved : isUnreserved '%' = false := by decide
  have hillegal : illegal.contains '%' = true := by decide
  have hbyte : decide ('%'.toNat < 256) = true := by decide
  rw [isEscaped, hunreserved, hillegal, hbyte]
  simp

theorem unescape_plain {text : Payload} (h : '%' ∉ text) : unescape text = some text := by
  induction text with
  | nil => rfl
  | cons c rest ih =>
      have hc : c ≠ '%' := fun hc => h (hc ▸ List.mem_cons_self)
      rw [unescape.eq_def]
      simp only [hc, if_false, ih fun hrest => h (List.mem_cons_of_mem c hrest), Option.map_some]

theorem unescape_append {front decoded : Payload} (h : unescape front = some decoded)
    (back : Payload) : unescape (front ++ back) = (unescape back).map (decoded ++ ·) := by
  induction front using unescape.induct generalizing decoded with
  | case1 =>
      cases h
      rw [List.nil_append]
      exact Option.map_id'.symm
  | case2 hi lo rest ih =>
      rw [unescape.eq_def] at h ⊢
      simp only [if_true, List.cons_append] at h ⊢
      cases hhi : HexUtil.hexDigitFromChar hi with
      | none => rw [hhi] at h; cases h
      | some hi =>
          cases hlo : HexUtil.hexDigitFromChar lo with
          | none => rw [hhi, hlo] at h; cases h
          | some lo =>
              cases hrest : unescape rest with
              | none => rw [hhi, hlo, hrest] at h; cases h
              | some text =>
                  rw [hhi, hlo, hrest] at h
                  cases h
                  rw [ih hrest]
                  cases unescape back <;> rfl
  | case3 rest hshort =>
      rw [unescape.eq_def] at h
      simp only [if_true, reduceCtorEq] at h
  | case4 c rest hc ih =>
      rw [unescape.eq_def] at h ⊢
      simp only [hc, if_false, List.cons_append] at h ⊢
      rcases Option.map_eq_some_iff.mp h with ⟨text, htext, rfl⟩
      rw [ih htext, Option.map_map]
      rfl

theorem unescape_escape (reserved rest : Payload) (c : Char) :
    unescape (escape reserved c ++ rest) = (unescape rest).map (c :: ·) := by
  rw [escape]
  split
  case isTrue h =>
    have hbyte : c.toNat < 256 := by
      simp only [isEscaped, Bool.and_eq_true, decide_eq_true_eq] at h
      exact h.1.2
    have hhi := hexDigitFromChar_upperDigit (d := c.toNat / 16) (by omega)
    have hlo := hexDigitFromChar_upperDigit (d := c.toNat % 16) (by omega)
    have hwhole : c.toNat / 16 * 16 + c.toNat % 16 = c.toNat := Nat.div_add_mod' _ _
    rw [unescape.eq_def]
    simp only [List.cons_append, List.nil_append, if_true, hhi, hlo, Option.bind_some,
      Option.bind_eq_bind, hwhole, Char.ofNat_toNat]
    cases unescape rest <;> rfl
  case isFalse h =>
    have hc : c ≠ '%' := fun hc => h (hc ▸ isEscaped_percent reserved)
    rw [List.singleton_append, unescape.eq_def]
    simp only [hc, if_false]

theorem not_mem_escape {c d : Char} (hc : c ∈ Uri.reserved ++ illegal) (hpercent : c ≠ '%') :
    c ∉ escape Uri.reserved d := by
  have hescaped : ∀ c ∈ Uri.reserved ++ illegal, isEscaped Uri.reserved c = true :=
    List.all_eq_true.mp (by decide)
  rw [escape]
  split
  case isTrue hd =>
    have hbyte : d.toNat < 256 := by
      simp only [isEscaped, Bool.and_eq_true, decide_eq_true_eq] at hd
      exact hd.1.2
    simp only [List.mem_cons, List.not_mem_nil, or_false, not_or]
    exact ⟨hpercent, ne_upperDigit hc (by omega), ne_upperDigit hc (by omega)⟩
  case isFalse hd =>
    rw [List.mem_singleton]
    rintro rfl
    exact hd (hescaped c hc)

/-- What is read of a reference up to its `#`, and then up to its `?`. -/
theorem getQueryParameters_percentCoding {path : Payload} (hpath : '?' ∉ path ∧ '#' ∉ path)
    (tail : Payload) :
    percentCoding.getQueryParameters (path ++ '?' :: tail) =
      if (unescape path).isSome ∧ (unescape (behindHash tail)).isSome then
        (queryPairs (beforeHash tail)).mapM (decodePair unescape)
      else none := by
  have hhash : ∀ c ∈ path ++ ['?'], (c != '#') = true := by
    intro c hc
    rw [bne_iff_ne]
    rintro rfl
    rcases List.mem_append.mp hc with hc | hc
    · exact hpath.2 hc
    · exact absurd (List.mem_singleton.mp hc) (by decide)
  have hmark : ∀ c ∈ path, (c != '?') = true := by
    intro c hc
    rw [bne_iff_ne]
    rintro rfl
    exact hpath.1 hc
  have hsplit : path ++ '?' :: tail = (path ++ ['?']) ++ tail := by
    rw [List.append_assoc, List.singleton_append]
  have hbefore : beforeHash (path ++ '?' :: tail) = path ++ '?' :: beforeHash tail := by
    rw [beforeHash, hsplit, List.takeWhile_append_of_pos hhash, List.append_assoc,
      List.singleton_append, beforeHash]
  have hbehind : behindHash (path ++ '?' :: tail) = behindHash tail := by
    rw [behindHash, hsplit, List.dropWhile_append_of_pos hhash, behindHash]
  have hhierarchy : (path ++ '?' :: beforeHash tail).takeWhile (· != '?') = path := by
    rw [List.takeWhile_append_of_pos hmark, List.takeWhile_cons_of_neg (by decide),
      List.append_nil]
  have hquery : ((path ++ '?' :: beforeHash tail).dropWhile (· != '?')).tail =
      beforeHash tail := by
    rw [List.dropWhile_append_of_pos hmark, List.dropWhile_cons_of_neg (by decide), List.tail_cons]
  simp only [percentCoding, hbefore, hbehind, hhierarchy, hquery]

theorem documented_percentCoding : Documented percentCoding where
  decode_encode text := by
    change unescape (text.flatMap (escape Uri.reserved)) = some text
    induction text with
    | nil => rfl
    | cons c text ih => rw [List.flatMap_cons, unescape_escape, ih, Option.map_some]
  not_mem_encode text c h := by
    have hpercent : '%' ∉ Uri.reserved := by decide
    change c ∉ text.flatMap (escape Uri.reserved)
    rw [List.mem_flatMap]
    rintro ⟨d, -, hd⟩
    exact not_mem_escape (List.mem_append_left _ h) (fun heq => hpercent (heq ▸ h)) hd
  decode_plain _ := unescape_plain
  decode_append _ back _ h := unescape_append h back
  query _ tail _ hpath := getQueryParameters_percentCoding hpath tail

theorem escapesIllegal_percentCoding : EscapesIllegal percentCoding := by
  intro text c hc hpercent
  change c ∉ text.flatMap (escape Uri.reserved)
  rw [List.mem_flatMap]
  rintro ⟨d, -, hd⟩
  exact not_mem_escape (List.mem_append_right _ hc) hpercent hd

end PocoURI

end CoolOnline
