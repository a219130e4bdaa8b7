import CoolOnline.Common.Protocol
import CoolOnline.Library.LeadingNumber

/-! # Integers in views

The number readers of `common/Util.hpp` and `common/Protocol.hpp` are given a view and hand the
pointer to its start to `strtol`, which reads on behind its end. What is behind a view is a
parameter here.
-/

namespace CoolOnline.IntegerViews

/-- The range of a `uint32_t`. -/
def IsUInt32 (n : Int) : Prop := 0 ≤ n ∧ n < 2 ^ 32

instance (n : Int) : Decidable (IsUInt32 n) := inferInstanceAs (Decidable (_ ∧ _))

/-- The range of a `long`. -/
def IsInt64 (n : Int) : Prop := -2 ^ 63 ≤ n ∧ n < 2 ^ 63

instance (n : Int) : Decidable (IsInt64 n) := inferInstanceAs (Decidable (_ ∧ _))

/-- A value stored in a `uint32_t`. -/
def toUInt32 (n : Int) : Int := n % 2 ^ 32

section

variable (input behind : Payload)

/-- `Util::i32FromString`, where it succeeds. -/
def i32FromString : Option Int := CoolOnline.i32FromString (input ++ behind)

def stringToInteger : Option Int := i32FromString input behind

/-- The value goes through an `int32_t`. -/
def stringToUInt32 : Option Int := (i32FromString input behind).map toUInt32

end

/-- The value of a token `name=number`; errors of the range are not looked at. -/
def getTokenInteger (token name behind : Payload) : Option Int :=
  if token.length > name.length + 1 ∧ name.isPrefixOf token ∧ token[name.length]? = some '=' then
    (strtol (token.drop (name.length + 1) ++ behind)).map toInt32
  else none

/-- The same for a literal name. -/
def getLiteralTokenInteger (token name behind : Payload) : Option Int :=
  if token.length > name.length + 1 ∧ token[name.length]? = some '=' ∧ name.isPrefixOf token then
    (strtol (token.drop (name.length + 1) ++ behind)).map toInt32
  else none

/-! ## What a view says -/

/-- The integer a text begins with, if it is in the range. -/
def integerIn (InRange : Int → Prop) [DecidablePred InRange] (text : Payload) : Option Int :=
  (Text.leadingInt text).bind fun n => if InRange n then some n else none

/-- Whatever is behind the view, the result is the integer that the view begins with, if it is in the
range, and a failure otherwise. -/
def Reports (read : Payload → Payload → Option Int) (InRange : Int → Prop) [DecidablePred InRange]
    (input : Payload) : Prop :=
  ∀ behind, read input behind = integerIn InRange input

/-- The value of a token with the name. -/
def tokenValue (token name : Payload) : Option Payload :=
  if token.length > name.length + 1 ∧ name ++ ['='] <+: token then
    some (token.drop (name.length + 1))
  else none

/-- The same for the value of a token. -/
def ReportsToken (read : Payload → Payload → Payload → Option Int) (token name : Payload) : Prop :=
  ∀ behind, read token name behind = (tokenValue token name).bind (integerIn IsInt32)

/-- The number ends in the text, or it fails however it goes on; and if there is a number it is in
the range or fails. -/
def Settled (InRange Fails : Int → Prop) (text : Payload) : Prop :=
  (Text.behindNumber text ≠ [] ∨ ∃ n, Text.leadingInt text = some n ∧ Fails n) ∧
    ∀ n, Text.leadingInt text = some n → InRange n ∨ Fails n

/-! ## Narrowing -/

/-- A number is narrowed to the target type, or fails; numbers of the range are kept. -/
structure Narrows (narrow : Int → Option Int) (InRange Fails : Int → Prop) : Prop where
  keeps (n : Int) (h : InRange n) : narrow n = some n
  fails (n : Int) : narrow n = none ↔ Fails n
  further (n n' : Int) (h : Fails n) (hpos : 0 < n → n ≤ n') (hneg : n < 0 → n' ≤ n) : Fails n'
  zero : InRange 0
  tells (n e : Int) (h : InRange n) (he : e = 1 ∨ e = -1) (hten : narrow (10 * n) = some n) :
    narrow (10 * n + e) ≠ some n

section

variable {narrow : Int → Option Int} {InRange Fails : Int → Prop} [DecidablePred InRange]
  {text : Payload}

theorem Narrows.narrow_eq (h : Narrows narrow InRange Fails) {n : Int}
    (hn : InRange n ∨ Fails n) : narrow n = if InRange n then some n else none := by
  by_cases hin : InRange n
  · rw [h.keeps n hin, if_pos hin]
  · rw [(h.fails n).mpr (hn.resolve_left hin), if_neg hin]

/-- A digit behind the text makes the number another one. -/
theorem leadingInt_append_digit (hend : Text.behindNumber text = []) {d : Nat} (hd : d < 10) :
    Text.leadingInt (text ++ [d.digitChar]) =
      some (Text.withSign (Text.isNegative text)
        (10 * Nat.ofDigitChars 10 (Text.numeral text) 0 + d)) := by
  have hdigits : ∀ c ∈ [d.digitChar], c.isDigit = true := by
    intro c hc
    rw [← Nat.toDigits_of_lt_base hd] at hc
    exact Text.isDigit_of_mem_toDigits hc
  rw [Text.leadingInt_append_digits hend hdigits (List.cons_ne_nil _ _),
    Text.ofDigitChars_append_digit _ hd]

/-- A text that its number may go on behind is told from none of its continuations. -/
theorem Narrows.fails_of_reports (h : Narrows narrow InRange Fails)
    (hreports : ∀ behind, (Text.leadingInt (text ++ behind)).bind narrow = integerIn InRange text)
    (hend : Text.behindNumber text = []) : ∃ n, Text.leadingInt text = some n ∧ Fails n := by
  have hzero := hreports [Nat.digitChar 0]
  have hone := hreports [Nat.digitChar 1]
  have hself := hreports []
  rw [leadingInt_append_digit hend (by decide), Option.bind_some, integerIn] at hzero hone
  rw [List.append_nil, integerIn] at hself
  by_cases hnil : Text.numeral text = []
  · have hnone : Text.leadingInt text = none := by
      rw [Text.leadingInt_eq, hnil]
      rfl
    have hkept := h.keeps 0 h.zero
    simp [hnil, hnone, Text.withSign, hkept] at hzero
  · have hnumber := Text.leadingInt_of_behindNumber hend hnil
    generalize Nat.ofDigitChars 10 (Text.numeral text) 0 = m at hzero hone hnumber
    rw [hnumber] at hzero hone hself ⊢
    refine ⟨_, rfl, ?_⟩
    simp only [Option.bind_some] at hzero hone hself
    by_cases hin : InRange (Text.withSign (Text.isNegative text) m)
    · rw [if_pos hin] at hzero hone
      have hten (d : Nat) : Text.withSign (Text.isNegative text) (10 * m + d) =
          10 * Text.withSign (Text.isNegative text) m + Text.withSign (Text.isNegative text) d := by
        simp only [Text.withSign]
        split <;> push_cast <;> omega
      have hsign : Text.withSign (Text.isNegative text) 1 = 1 ∨
          Text.withSign (Text.isNegative text) 1 = -1 := by
        simp only [Text.withSign]
        split <;> simp
      rw [hten] at hzero hone
      have hnought : Text.withSign (Text.isNegative text) 0 = 0 := by simp [Text.withSign]
      rw [hnought, Int.add_zero] at hzero
      exact absurd hone (h.tells _ _ hin hsign hzero)
    · rw [if_neg hin] at hself
      exact (h.fails _).mp hself

/-- Where what is behind the text does not go on with its number, only the range counts. -/
theorem Narrows.read_iff (h : Narrows narrow InRange Fails) {behind : Payload}
    (hsame : Text.leadingInt (text ++ behind) = Text.leadingInt text) :
    (Text.leadingInt (text ++ behind)).bind narrow = integerIn InRange text ↔
      ∀ n, Text.leadingInt text = some n → InRange n ∨ Fails n := by
  rw [hsame, integerIn]
  cases Text.leadingInt text with
  | none => simp
  | some n =>
      simp only [Option.bind_some, Option.some.injEq, forall_eq']
      constructor
      · intro hread
        by_cases hin : InRange n
        · exact .inl hin
        · rw [if_neg hin] at hread
          exact .inr ((h.fails n).mp hread)
      · intro hn
        exact h.narrow_eq hn

theorem Narrows.reports_iff (h : Narrows narrow InRange Fails) (text : Payload) :
    (∀ behind, (Text.leadingInt (text ++ behind)).bind narrow = integerIn InRange text) ↔
      Settled InRange Fails text := by
  constructor
  case mp =>
    intro hreports
    refine ⟨?_, (h.read_iff (by rw [List.append_nil])).mp (hreports [])⟩
    by_cases hend : Text.behindNumber text = []
    · exact .inr (h.fails_of_reports hreports hend)
    · exact .inl hend
  case mpr =>
    intro hsettled behind
    obtain ⟨hends, hrange⟩ := hsettled
    by_cases hend : Text.behindNumber text = []
    · obtain ⟨n, hn, hfails⟩ := hends.resolve_left (not_not.mpr hend)
      have hne : Text.numeral text ≠ [] := by
        intro hnil
        rw [Text.leadingInt_eq, hnil] at hn
        cases hn
      obtain ⟨m, hm, hmore⟩ := Text.leadingInt_append_of_behindNumber hend hne behind
      have hnumber := Text.leadingInt_of_behindNumber hend hne
      cases hn.symm.trans hnumber
      have hfurther : Fails (Text.withSign (Text.isNegative text) m) := by
        refine h.further _ _ hfails ?_ ?_ <;> (simp only [Text.withSign]; split <;> omega)
      rw [hmore, integerIn, hnumber, Option.bind_some, Option.bind_some,
        (h.fails _).mpr hfurther, ← h.narrow_eq (.inr hfails), (h.fails _).mpr hfails]
    · exact (h.read_iff (Text.leadingInt_append hend)).mpr hrange

end

/-! ## The readers -/

/-- What `i32FromString` makes of a number. -/
def narrowInt32 (n : Int) : Option Int :=
  if -2 ^ 63 ≤ n ∧ n < 2 ^ 63 then some (toInt32 n) else none

/-- What `stringToUInt32` makes of a number. -/
def narrowUInt32 (n : Int) : Option Int := (narrowInt32 n).map toUInt32

/-- What `getTokenInteger` makes of a number. -/
def narrowLong (n : Int) : Option Int := some (toInt32 (max (-2 ^ 63) (min n (2 ^ 63 - 1))))

theorem i32FromString_eq (input behind : Payload) :
    i32FromString input behind = (Text.leadingInt (input ++ behind)).bind narrowInt32 := rfl

theorem stringToUInt32_eq (input behind : Payload) :
    stringToUInt32 input behind = (Text.leadingInt (input ++ behind)).bind narrowUInt32 := by
  rw [stringToUInt32, i32FromString_eq, Option.map_bind]
  rfl

theorem ne_emod_add {n e : Int} (he : e = 1 ∨ e = -1) : n % 2 ^ 32 ≠ (n + e) % 2 ^ 32 := by
  omega

/-- A number and the next one are told apart where their last 32 bits are kept. -/
theorem tells_of_emod {narrow : Int → Option Int}
    (hmod : ∀ n m, narrow n = some m → m % 2 ^ 32 = n % 2 ^ 32) {n m e : Int}
    (he : e = 1 ∨ e = -1) (h : narrow n = some m) : narrow (n + e) ≠ some m := by
  intro hmore
  exact ne_emod_add he ((hmod n m h).symm.trans (hmod (n + e) m hmore))

theorem emod_of_narrowInt32 (n m : Int) (h : narrowInt32 n = some m) :
    m % 2 ^ 32 = n % 2 ^ 32 := by
  rw [narrowInt32, Option.ite_none_right_eq_some] at h
  cases h.2
  exact emod_toInt32 n

theorem emod_of_narrowUInt32 (n m : Int) (h : narrowUInt32 n = some m) :
    m % 2 ^ 32 = n % 2 ^ 32 := by
  obtain ⟨k, hk, rfl⟩ := Option.map_eq_some_iff.mp h
  rw [toUInt32, Int.emod_emod_of_dvd _ (Int.dvd_refl _)]
  exact emod_of_narrowInt32 n k hk

theorem narrows_int32 : Narrows narrowInt32 IsInt32 fun n => ¬ IsInt64 n where
  keeps n h := by
    have hlong : -2 ^ 63 ≤ n ∧ n < 2 ^ 63 := by
      simp only [IsInt32] at h
      omega
    rw [narrowInt32, if_pos hlong, toInt32_of_isInt32 h]
  fails n := by simp [narrowInt32, IsInt64]
  further n n' h hpos hneg := by
    simp only [IsInt64] at h ⊢
    omega
  zero := by decide
  tells _ _ _ he hten := tells_of_emod emod_of_narrowInt32 he hten

theorem narrows_uint32 : Narrows narrowUInt32 IsUInt32 fun n => ¬ IsInt64 n where
  keeps n h := by
    simp only [IsUInt32] at h
    have hlong : -2 ^ 63 ≤ n ∧ n < 2 ^ 63 := by omega
    have hsame := emod_toInt32 n
    rw [narrowUInt32, narrowInt32, if_pos hlong, Option.map_some, toUInt32, hsame,
      Int.emod_eq_of_lt h.1 h.2]
  fails n := by simp [narrowUInt32, narrowInt32, IsInt64]
  further n n' h hpos hneg := by
    simp only [IsInt64] at h ⊢
    omega
  zero := by decide
  tells _ _ _ he hten := tells_of_emod emod_of_narrowUInt32 he hten

theorem narrows_long : Narrows narrowLong IsInt32 fun _ => False where
  keeps n h := by
    have hlong : max (-2 ^ 63) (min n (2 ^ 63 - 1)) = n := by
      simp only [IsInt32] at h
      omega
    rw [narrowLong, hlong, toInt32_of_isInt32 h]
  fails n := by simp [narrowLong]
  further _ _ h _ _ := h
  zero := by decide
  tells n e h he hten hmore := by
    have hlong : max (-2 ^ 63) (min (10 * n) (2 ^ 63 - 1)) = 10 * n ∧
        max (-2 ^ 63) (min (10 * n + e) (2 ^ 63 - 1)) = 10 * n + e := by
      simp only [IsInt32] at h
      omega
    simp only [narrowLong, hlong, Option.some.injEq] at hten hmore
    have hsame := emod_toInt32 (10 * n)
    have hother := emod_toInt32 (10 * n + e)
    rw [hten] at hsame
    rw [hmore] at hother
    exact ne_emod_add he (hsame.symm.trans hother)

theorem reports_i32FromString (input : Payload) :
    Reports i32FromString IsInt32 input ↔ Settled IsInt32 (fun n => ¬ IsInt64 n) input := by
  simp only [Reports, i32FromString_eq]
  exact narrows_int32.reports_iff input

theorem reports_stringToUInt32 (input : Payload) :
    Reports stringToUInt32 IsUInt32 input ↔ Settled IsUInt32 (fun n => ¬ IsInt64 n) input := by
  simp only [Reports, stringToUInt32_eq]
  exact narrows_uint32.reports_iff input

theorem prefix_equals_iff {token name : Payload} :
    name ++ ['='] <+: token ↔ name <+: token ∧ token[name.length]? = some '=' := by
  constructor
  · intro h
    refine ⟨(List.prefix_append _ _).trans h, ?_⟩
    obtain ⟨rest, hrest⟩ := h
    rw [← hrest]
    simp
  · intro h
    obtain ⟨⟨rest, hrest⟩, hequals⟩ := h
    rw [← hrest, List.getElem?_append_right (Nat.le_refl _), Nat.sub_self] at hequals
    cases rest with
    | nil => cases hequals
    | cons c rest =>
        rw [← hrest, List.prefix_append_right_inj, Option.some.inj hequals]
        exact ⟨rest, rfl⟩

theorem getTokenInteger_eq (token name behind : Payload) :
    getTokenInteger token name behind = (tokenValue token name).bind fun value =>
      (Text.leadingInt (value ++ behind)).bind narrowLong := by
  simp only [getTokenInteger, tokenValue, prefix_equals_iff, List.isPrefixOf_iff_prefix]
  split
  · rw [strtol, Option.map_map, Option.map_eq_bind]
    rfl
  · rfl

/-- The two forms are the same function. -/
theorem getLiteralTokenInteger_eq : getLiteralTokenInteger = getTokenInteger := by
  funext token name behind
  rw [getLiteralTokenInteger, getTokenInteger]
  exact if_congr (and_congr_right fun _ => and_comm) rfl rfl

theorem reportsToken_getTokenInteger (token name : Payload) :
    ReportsToken getTokenInteger token name ↔
      ∀ value, tokenValue token name = some value → Settled IsInt32 (fun _ => False) value := by
  simp only [ReportsToken, getTokenInteger_eq]
  cases hvalue : tokenValue token name with
  | none => simp
  | some value =>
      simp only [Option.bind_some, Option.some.injEq, forall_eq']
      exact narrows_long.reports_iff value

/-- Integers are reported as they stand in the view exactly where their number ends in the view and
is in the range, or is too long for a `long` where that is looked at. -/
theorem reportsIntegers_iff (input token name : Payload) :
    (Reports i32FromString IsInt32 input ↔ Settled IsInt32 (fun n => ¬ IsInt64 n) input) ∧
      (Reports stringToInteger IsInt32 input ↔ Settled IsInt32 (fun n => ¬ IsInt64 n) input) ∧
      (Reports stringToUInt32 IsUInt32 input ↔ Settled IsUInt32 (fun n => ¬ IsInt64 n) input) ∧
      (ReportsToken getTokenInteger token name ↔
        ∀ value, tokenValue token name = some value → Settled IsInt32 (fun _ => False) value) ∧
      (ReportsToken getLiteralTokenInteger token name ↔
        ∀ value, tokenValue token name = some value → Settled IsInt32 (fun _ => False) value) := by
  refine ⟨reports_i32FromString input, reports_i32FromString input,
    reports_stringToUInt32 input, reportsToken_getTokenInteger token name, ?_⟩
  rw [getLiteralTokenInteger_eq]
  exact reportsToken_getTokenInteger token name

/-- Values of more than 32 bits are truncated, a negative one becomes a large one, and the digits
behind a view count. -/
theorem not_reports :
    ¬ Reports i32FromString IsInt32 "4294967297 ".toList ∧
      ¬ Reports stringToInteger IsInt32 "12".toList ∧
      ¬ Reports stringToUInt32 IsUInt32 "-1 ".toList ∧
      ¬ ReportsToken getTokenInteger "id=4294967297 ".toList "id".toList := by
  refine ⟨fun h => ?_, fun h => ?_, fun h => ?_, fun h => ?_⟩
  · exact absurd (h []) (by decide)
  · exact absurd (h "3".toList) (by decide)
  · exact absurd (h []) (by decide)
  · exact absurd (h []) (by decide)

end CoolOnline.IntegerViews
