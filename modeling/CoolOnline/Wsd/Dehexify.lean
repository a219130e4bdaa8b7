import CoolOnline.Common.HexUtil
import CoolOnline.Library.Search

/-! # Hexified URLs

`RequestDetails::dehexify` of `wsd/RequestDetails.cpp`, which decodes the segment of a `cool` URL
that begins with `0x`, and `HexUtil::dataToHexString` and `dataFromHexString`.
-/

namespace CoolOnline

namespace HexUtil

/-- `snprintf` of an `unsigned char` with `%.2x`. -/
def hexByte (c : Char) : Payload :=
  [(c.toNat % 256 / 16).digitChar, (c.toNat % 256 % 16).digitChar]

def dataToHexString (buffer : Payload) (offset length : Nat) : Payload :=
  ((buffer.drop offset).take length).flatMap hexByte

/-- The digits of a number, behind their `0x` if they have one. -/
def digitsOf : Payload → Payload
  | '0' :: 'x' :: text => text
  | '0' :: 'X' :: text => text
  | text => text

/-- The number that a `std::num_get` makes of digits: too large ones are the largest. -/
def unsignedOf (negative : Bool) (digits : Payload) : Nat :=
  if 2 ^ 32 ≤ hexValue digits then 2 ^ 32 - 1
  else if negative then (2 ^ 32 - hexValue digits) % 2 ^ 32 else hexValue digits

/-- `stream >> value` with `std::hex`: the value, and the text that stays unread. Without anything
but blanks the value is what it was, and without a digit it is zero. -/
def extract (unread : Payload) (value : Nat) : Nat × Payload :=
  match unread.dropWhile Text.isSpace with
  | [] => (value, [])
  | c :: text =>
      let behindSign := if c = '-' ∨ c = '+' then text else c :: text
      let digits := (digitsOf behindSign).takeWhile isHexDigit
      (if digits = [] then 0 else unsignedOf (c == '-') digits,
        (digitsOf behindSign).dropWhile isHexDigit)

/-- Two characters are added to the stream for each value that is taken from it. -/
def extractAll (unread : Payload) (value : Nat) : Payload → Payload
  | hi :: lo :: hexString =>
      let result := extract (unread ++ [hi, lo]) value
      Char.ofNat (result.1 % 256) :: extractAll result.2 result.1 hexString
  | _ => []

/-- `value` is what was in the variable before anything was read. -/
def dataFromHexString (value : Nat) (hexString data : Payload) : Bool × Payload :=
  if hexString.length % 2 ≠ 0 then (false, data) else (true, extractAll [] value hexString)

/-- Two digits are one value, and nothing stays unread. -/
theorem extract_hexByte {c : Char} (hbyte : c.toNat < 256) (value : Nat) :
    extract (hexByte c) value = (c.toNat, []) := by
  have hall : ∀ n : Fin 256,
      extract [(n.val / 16).digitChar, (n.val % 16).digitChar] 0 = (n.val, []) := by
    decide +kernel
  have hzero := hall ⟨c.toNat, hbyte⟩
  have hspace : Text.isSpace (c.toNat / 16).digitChar = false :=
    isSpace_of_isHexDigit (by
      rw [isHexDigit, hexDigitFromChar_digitChar (by omega)]
      rfl)
  rw [hexByte, Nat.mod_eq_of_lt hbyte]
  simp only [extract, List.dropWhile_cons_of_neg (ne_true_of_eq_false hspace)] at hzero ⊢
  exact hzero

/-- What is written in hexadecimal is read again. -/
theorem extractAll_flatMap {buffer : Payload} (hbytes : ∀ c ∈ buffer, c.toNat < 256)
    (value : Nat) : extractAll [] value (buffer.flatMap hexByte) = buffer := by
  induction buffer generalizing value with
  | nil => rfl
  | cons c buffer ih =>
      have hc := hbytes c List.mem_cons_self
      have hrest := ih (fun d hd => hbytes d (List.mem_cons_of_mem c hd)) c.toNat
      have hfirst : extract ([] ++ hexByte c) value = (c.toNat, []) := extract_hexByte hc value
      rw [List.flatMap_cons]
      change (let result := extract ([] ++ hexByte c) value
        Char.ofNat (result.1 % 256) :: extractAll result.2 result.1 (buffer.flatMap hexByte)) = _
      rw [hfirst]
      simp only [hrest, Nat.mod_eq_of_lt hc, Char.ofNat_toNat]

theorem dataFromHexString_dataToHexString {buffer : Payload}
    (hbytes : ∀ c ∈ buffer, c.toNat < 256) (value : Nat) (data : Payload) :
    dataFromHexString value (dataToHexString buffer 0 buffer.length) data = (true, buffer) := by
  have hlength : (buffer.flatMap hexByte).length % 2 = 0 := by
    induction buffer with
    | nil => rfl
    | cons c buffer ih =>
        have hrest := ih fun d hd => hbytes d (List.mem_cons_of_mem c hd)
        rw [List.flatMap_cons, List.length_append]
        have htwo : (hexByte c).length = 2 := rfl
        omega
  rw [dataToHexString, List.drop_zero, List.take_length, dataFromHexString,
    if_neg (not_not.mpr hlength), extractAll_flatMap hbytes]

theorem length_extractAll_le (unread : Payload) (value : Nat) (hexString : Payload) :
    (extractAll unread value hexString).length ≤ hexString.length := by
  induction unread, value, hexString using extractAll.induct with
  | case1 unread value hi lo hexString result ih =>
      simp only [extractAll, List.length_cons]
      exact Nat.succ_le_succ (ih.trans (Nat.le_succ _))
  | case2 unread value hexString hshort =>
      rw [extractAll]
      · exact Nat.zero_le _
      · exact hshort

theorem length_dataFromHexString_le (value : Nat) (hexString : Payload) :
    (dataFromHexString value hexString []).2.length ≤ hexString.length := by
  rw [dataFromHexString]
  split
  · exact Nat.zero_le _
  · exact length_extractAll_le [] value hexString

end HexUtil

namespace RequestDetails

/-- For now, we only hexify `cool/` URLs. -/
def hexPrefix : Payload := "cool/0x".toList

/-- Nothing when `std::out_of_range` is thrown, as `substr` does that is to begin behind the end. -/
def dehexify (value : Nat) (uriString : Payload) : Option Payload :=
  match Search.cutAt hexPrefix uriString with
  | none => some uriString
  | some (before, rest) =>
      let encoded := rest.takeWhile (· != '/')
      let decoded := (HexUtil.dataFromHexString value encoded []).2
      match rest.dropWhile (· != '/') with
      | [] => none
      | remainder => some (before ++ "cool/".toList ++ decoded ++ remainder)

/-- A URL in which the token behind `cool/` is replaced. -/
def hexified (before token tail : Payload) : Payload :=
  before ++ (hexPrefix ++ (HexUtil.dataToHexString token 0 token.length ++ tail))

section

variable {value : Nat} {before rest token tail uriString : Payload}

theorem dehexify_of_cutAt (hcut : Search.cutAt hexPrefix uriString = some (before, rest)) :
    dehexify value uriString =
      if '/' ∈ rest then
        some (before ++ "cool/".toList ++
          (HexUtil.dataFromHexString value (rest.takeWhile (· != '/')) []).2 ++
          rest.dropWhile (· != '/'))
      else none := by
  simp only [dehexify, hcut]
  cases hdrop : rest.dropWhile (· != '/') with
  | nil =>
      rw [if_neg]
      intro hmem
      have hall := List.dropWhile_eq_nil_iff.mp hdrop '/' hmem
      exact absurd hall (by decide)
  | cons c remainder =>
      rw [if_pos]
      by_contra hmem
      have hnil : rest.dropWhile (· != '/') = [] :=
        List.dropWhile_eq_nil_iff.mpr fun d hd => bne_iff_ne.mpr fun heq => hmem (heq ▸ hd)
      rw [hnil] at hdrop
      cases hdrop

/-- An exception is thrown where no slash follows the first hex token. -/
theorem isSome_dehexify_iff (uriString : Payload) :
    (dehexify value uriString).isSome = true ↔
      ∀ before rest, Search.cutAt hexPrefix uriString = some (before, rest) → '/' ∈ rest := by
  cases hcut : Search.cutAt hexPrefix uriString with
  | none => simp [dehexify, hcut]
  | some parts =>
      rcases parts with ⟨before, rest⟩
      rw [dehexify_of_cutAt hcut]
      constructor
      · intro h before' rest' heq
        cases heq
        by_contra hmem
        rw [if_neg hmem] at h
        cases h
      · intro h
        rw [if_pos (h before rest rfl)]
        rfl

theorem firstAt_hexPrefix (h : ¬ hexPrefix <:+: before) : Search.FirstAt hexPrefix before := by
  have hname : hexPrefix = 'c' :: "ool/0x".toList := by decide
  rw [hname] at h ⊢
  exact Search.firstAt_of_not_occurs (by decide) h

theorem slash_not_mem_dataToHexString (token : Payload) :
    '/' ∉ HexUtil.dataToHexString token 0 token.length := by
  have hall : ∀ n : Fin 16, n.val.digitChar ≠ '/' := by decide
  rw [HexUtil.dataToHexString, List.mem_flatMap]
  rintro ⟨c, -, hc⟩
  simp only [HexUtil.hexByte, List.mem_cons, List.not_mem_nil, or_false] at hc
  rcases hc with hc | hc
  · exact hall ⟨c.toNat % 256 / 16, by omega⟩ hc.symm
  · exact hall ⟨c.toNat % 256 % 16, by omega⟩ hc.symm

/-- Where the first hex token is the one that was written, it is decoded. -/
theorem dehexify_hexified (hbefore : ¬ hexPrefix <:+: before) (hbytes : ∀ c ∈ token, c.toNat < 256)
    (htail : tail.head? = some '/') :
    dehexify value (hexified before token tail) =
      some (before ++ "cool/".toList ++ token ++ tail) := by
  have hcut := Search.cutAt_of_firstAt (firstAt_hexPrefix hbefore)
    (HexUtil.dataToHexString token 0 token.length ++ tail)
  have hdigits : ∀ c ∈ HexUtil.dataToHexString token 0 token.length, (c != '/') = true :=
    fun c hc => bne_iff_ne.mpr fun heq => slash_not_mem_dataToHexString token (heq ▸ hc)
  rcases List.head?_eq_some_iff.mp htail with ⟨remainder, rfl⟩
  rw [hexified, dehexify_of_cutAt hcut, if_pos (by simp), List.takeWhile_append_of_pos hdigits,
    List.dropWhile_append_of_pos hdigits, List.takeWhile_cons_of_neg (by decide),
    List.dropWhile_cons_of_neg (by decide), List.append_nil,
    HexUtil.dataFromHexString_dataToHexString hbytes]

theorem takeWhile_append_slash (text rest : Payload) :
    (text ++ '/' :: rest).takeWhile (· != '/') = text.takeWhile (· != '/') := by
  induction text with
  | nil => rfl
  | cons c text ih => rw [List.cons_append, List.takeWhile_cons, List.takeWhile_cons, ih]

theorem exists_dropWhile_append_slash (text rest : Payload) :
    ∃ more, (text ++ '/' :: rest).dropWhile (· != '/') = '/' :: more := by
  induction text with
  | nil => exact ⟨rest, rfl⟩
  | cons c text ih =>
      rw [List.cons_append, List.dropWhile_cons]
      split
      case isTrue => exact ih
      case isFalse hc =>
        have heq : c = '/' := by simpa using hc
        exact ⟨text ++ '/' :: rest, by rw [heq]⟩

/-- Where an earlier hex token is decoded, the URL gets no longer in front of the slash behind it, as
it would have to. -/
theorem dehexify_hexified_ne (hbefore : hexPrefix <:+: before) :
    dehexify value (hexified before token tail) ≠
      some (before ++ "cool/".toList ++ token ++ tail) := by
  rcases Option.isSome_iff_exists.mp (Search.isSome_cutAt_of_occurs hbefore) with
    ⟨⟨front, behind⟩, hcut⟩
  have hsplit := (Search.cutAt_eq_some hcut).1
  have hfirst := Search.cutAt_append hcut
    (hexPrefix ++ (HexUtil.dataToHexString token 0 token.length ++ tail))
  have hword : hexPrefix = "cool".toList ++ '/' :: "0x".toList := by decide
  have hrest : behind ++ (hexPrefix ++ (HexUtil.dataToHexString token 0 token.length ++ tail)) =
      (behind ++ "cool".toList) ++
        '/' :: ("0x".toList ++ (HexUtil.dataToHexString token 0 token.length ++ tail)) := by
    rw [hword]
    simp only [List.append_assoc, List.cons_append]
  rw [hexified, dehexify_of_cutAt hfirst, hrest, if_pos (by simp), takeWhile_append_slash]
  generalize hencoded : (behind ++ "cool".toList).takeWhile (· != '/') = encoded
  have hdecoded := HexUtil.length_dataFromHexString_le value encoded
  generalize (HexUtil.dataFromHexString value encoded []).2 = decoded at hdecoded
  intro heq
  have hcool : "cool/".toList = "cool".toList ++ ['/'] := by decide
  have hlist : decoded ++ ((behind ++ "cool".toList) ++
      '/' :: ("0x".toList ++ (HexUtil.dataToHexString token 0 token.length ++ tail))).dropWhile
        (· != '/') =
      ("0x".toList ++ (behind ++ "cool".toList)) ++ '/' :: (token ++ tail) := by
    have hinj := Option.some.inj heq
    rw [hsplit, hword, hcool] at hinj
    simp only [List.append_assoc, List.cons_append, List.nil_append, List.append_cancel_left_eq,
      List.cons.injEq, true_and] at hinj ⊢
    exact hinj
  rcases exists_dropWhile_append_slash (behind ++ "cool".toList)
    ("0x".toList ++ (HexUtil.dataToHexString token 0 token.length ++ tail)) with ⟨more, hmore⟩
  have htokens := congrArg (·.takeWhile (· != '/')) hlist
  have hmark : ∀ c ∈ "0x".toList, (c != '/') = true := List.all_eq_true.mp (by decide)
  simp only [hmore, takeWhile_append_slash] at htokens
  rw [List.takeWhile_append_of_pos hmark, hencoded] at htokens
  have hlength := congrArg List.length htokens
  have hle : (decoded.takeWhile (· != '/')).length ≤ decoded.length :=
    (List.takeWhile_prefix _).length_le
  have htwo : "0x".toList.length = 2 := by decide
  rw [List.length_append] at hlength
  omega

end

/-- Hexified URLs decode back if and only if a slash follows the token and there is no hex token in
front of it, and dehexify throws nothing if and only if a slash follows the first hex token. -/
theorem dehexify_iff (value : Nat) (before token tail uriString : Payload)
    (hbytes : ∀ c ∈ token, c.toNat < 256) (htail : tail = [] ∨ tail.head? = some '/') :
    (dehexify value (hexified before token tail) =
        some (before ++ "cool/".toList ++ token ++ tail) ↔
      tail ≠ [] ∧ ¬ hexPrefix <:+: before) ∧
      ((dehexify value uriString).isSome = true ↔
        ∀ before rest, Search.cutAt hexPrefix uriString = some (before, rest) → '/' ∈ rest) := by
  refine ⟨⟨fun h => ?_, fun h => ?_⟩, isSome_dehexify_iff uriString⟩
  · have hbefore : ¬ hexPrefix <:+: before := fun hoccurs => dehexify_hexified_ne hoccurs h
    refine ⟨?_, hbefore⟩
    rintro rfl
    have hcut := Search.cutAt_of_firstAt (firstAt_hexPrefix hbefore)
      (HexUtil.dataToHexString token 0 token.length ++ [])
    rw [hexified, dehexify_of_cutAt hcut, List.append_nil,
      if_neg (slash_not_mem_dataToHexString token)] at h
    cases h
  · rcases htail with rfl | htail
    · exact absurd rfl h.1
    · exact dehexify_hexified h.2 hbytes htail

/-- A document by its hexified name, and a URL without a token. -/
theorem dehexify_doc :
    dehexify 0 "/cool/0x612f62/ws".toList = some "/cool/a/b/ws".toList ∧
      (dehexify 0 "/".toList).isSome = true := by
  have hall := dehexify_iff 0 "/".toList "a/b".toList "/ws".toList "/".toList (by simp)
    (.inr (by decide))
  have hurl : hexified "/".toList "a/b".toList "/ws".toList = "/cool/0x612f62/ws".toList := by
    decide +kernel
  have hfirst := hall.1.mpr ⟨by decide, by decide⟩
  rw [hurl] at hfirst
  refine ⟨hfirst, hall.2.mpr fun before rest hcut => ?_⟩
  have hnone : Search.cutAt hexPrefix "/".toList = none := by decide
  rw [hnone] at hcut
  cases hcut

/-- A token at the end of the URL. -/
theorem dehexify_end :
    hexified "/".toList "a".toList [] = "/cool/0x61".toList ∧
      dehexify 0 "/cool/0x61".toList = none ∧
      dehexify 0 (hexified "/".toList "a".toList []) ≠
        some ("/".toList ++ "cool/".toList ++ "a".toList ++ []) := by
  decide +kernel

end RequestDetails

end CoolOnline
