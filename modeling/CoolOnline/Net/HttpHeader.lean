import CoolOnline.Common.HexUtil

/-! # HTTP headers

`http::Header` of `net/HttpRequest.cpp` and the functions it is parsed with. The fields
themselves are read by `Poco::Net::MessageHeader`, of which nothing is said here but where the
header ends.
-/

namespace CoolOnline.Http

def isWhitespace (ch : Char) : Bool := ch == ' ' || ch == '\t' || ch == '\r'

/-- What comes behind the spaces, tabs and carriage returns. -/
def skipSpaceAndTab (p : Payload) : Payload := p.dropWhile isWhitespace

def skipCRLF (p : Payload) : Payload := p.dropWhile fun c => c == '\r' || c == '\n'

/-- The offset of the first LF, or the length. -/
def findLineBreak (p : Payload) : Nat := p.findIdx (· == '\n')

/-- The offset of the LF of the first blank line, after the line break of another line. -/
def findBlankLine : Payload → Option Nat
  | [] => none
  | c :: rest =>
      if c = '\n' then
        match rest with
        | d :: e :: behind =>
            if d = '\r' ∧ e = '\n' then some 2
            else (findBlankLine behind).map (· + 3) -- Skip over the mismatch.
        | _ => none
      else (findBlankLine rest).map (· + 1)

/-- The offset of the end of the token, or the length. -/
def findEndOfToken (p : Payload) : Nat := p.findIdx fun c => isWhitespace c || c == '\n'

/-! ## Fields -/

abbrev Field := Payload × Payload

/-- `Util::iequal`. -/
def iequal (lhs rhs : Payload) : Bool := lhs.map Char.toLower == rhs.map Char.toLower

/-- `Util::trimmed`, which trims spaces only. -/
def trimmed (s : Payload) : Payload := ((s.dropWhile (· == ' ')).reverse.dropWhile (· == ' ')).reverse

structure Header where
  headers : List Field
  chunked : Bool
deriving DecidableEq, Repr

namespace Header

def empty : Header := ⟨[], false⟩

def CONTENT_LENGTH : Payload := "Content-Length".toList

def TRANSFER_ENCODING : Payload := "Transfer-Encoding".toList

/-- Replaces the value of the first field of this name, if there is one. -/
def setField (key value : Payload) : List Field → List Field
  | [] => [(key, value)]
  | (name, old) :: rest =>
      if iequal name key then (name, value) :: rest else (name, old) :: setField key value rest

variable (h : Header)

def set (key value : Payload) : Header := { h with headers := setField key value h.headers }

def has (key : Payload) : Bool := h.headers.any fun field => iequal field.1 key

def get (key : Payload) : Payload :=
  ((h.headers.find? fun field => iequal field.1 key).map Prod.snd).getD []

def hasContentLength : Bool := h.has CONTENT_LENGTH

/-- The length, or -1. -/
def getContentLength : Int :=
  match Text.leadingNat (h.get CONTENT_LENGTH) with
  | some length => if length < 2 ^ 63 then length else -1
  | none => -1

def getTransferEncoding : Payload := h.get TRANSFER_ENCODING

/-- One field as it is written. -/
def writeField (field : Field) : Payload := field.1 ++ ([':', ' '] ++ (field.2 ++ ['\r', '\n']))

/-- The end of the header is not written. -/
def writeData : Payload := h.headers.flatMap writeField

end Header

/-- How `Poco::Net::MessageHeader::read` ends. -/
inductive PocoRead
  | fields (fields : List Field)
  | failed
  | exception
deriving DecidableEq, Repr

/-- How `Header::parse` ends: -1, 0, or the number of elements consumed. -/
inductive Parsed
  | invalid
  | incomplete
  | parsed (read : Nat) (header : Header)
deriving DecidableEq, Repr

/-- The word "chunked". -/
def chunkedWord : Payload := ['c', 'h', 'u', 'n', 'k', 'e', 'd']

/-- The fields read, as they are set one after the other. -/
def Header.setAll (h : Header) (fields : List Field) : Header :=
  let h := fields.foldl (fun h field => h.set (trimmed field.1) (trimmed field.2)) h
  { h with chunked := h.getTransferEncoding == chunkedWord }

def Header.parse (poco : Payload → PocoRead) (h : Header) (p : Payload) : Parsed :=
  if p.length < 4 then .incomplete
  else
    match findBlankLine p with
    | none => .incomplete
    | some endPos =>
        match poco p with
        | .failed => .invalid
        | .exception => .incomplete
        | .fields fields => .parsed (endPos + 1) (h.setAll fields)

/-! ## Where a header ends -/

def crlf : Payload := ['\r', '\n']

/-- Lines with a line break behind each. -/
def linesText (lines : List Payload) : Payload := lines.flatMap (· ++ crlf)

/-- A line of a header: it is not blank. -/
def IsLine (line : Payload) : Prop := line ≠ [] ∧ '\n' ∉ line

variable {p line rest more : Payload} {lines : List Payload} {n : Nat}

theorem findLineBreak_append (h : '\n' ∉ line) (rest : Payload) :
    findLineBreak (line ++ ('\n' :: rest)) = line.length :=
  Text.findIdx_append_cons (Text.ne_of_not_mem h) rfl rest

theorem findLineBreak_of_not_mem (h : '\n' ∉ p) : findLineBreak p = p.length :=
  List.findIdx_eq_length.mpr (Text.ne_of_not_mem h)

theorem findBlankLine_append_line (h : '\n' ∉ line) (rest : Payload) :
    findBlankLine (line ++ rest) = (findBlankLine rest).map (· + line.length) := by
  induction line with
  | nil => simp
  | cons c line ih =>
      have hc : c ≠ '\n' := fun hc => h (hc ▸ List.mem_cons_self)
      rw [List.cons_append, findBlankLine.eq_def]
      simp only [hc, if_false]
      rw [ih fun hmem => h (List.mem_cons_of_mem c hmem), Option.map_map]
      rfl

/-- Behind a line that is followed by another one the blank line is found as it is in that. -/
theorem findBlankLine_line_break (h : IsLine line) (rest : Payload) :
    findBlankLine ('\n' :: (line ++ (crlf ++ rest))) =
      (findBlankLine ('\n' :: rest)).map (· + (line.length + 2)) := by
  obtain ⟨hne, hline⟩ := h
  obtain ⟨c, line, rfl⟩ := List.exists_cons_of_ne_nil hne
  have hcr : '\n' ∉ ['\r'] := by decide
  cases line with
  | nil =>
      rw [findBlankLine.eq_def]
      have hnot : ¬ (c = '\r' ∧ '\r' = '\n') := by simp
      simp only [if_true, List.cons_append, List.nil_append, crlf, hnot, if_false, List.length_cons,
        List.length_nil]
  | cons d line =>
      have hd : d ≠ '\n' := fun hd => hline (by simp [hd])
      have hnot : ¬ (c = '\r' ∧ d = '\n') := fun h => hd h.2
      have hrest : '\n' ∉ line ++ ['\r'] := by
        intro hmem
        rcases List.mem_append.mp hmem with hmem | hmem
        · exact hline (by simp [hmem])
        · exact absurd hmem hcr
      rw [findBlankLine.eq_def]
      simp only [if_true, List.cons_append, hnot, if_false]
      have hsplit : line ++ (crlf ++ rest) = (line ++ ['\r']) ++ ('\n' :: rest) := by simp [crlf]
      rw [hsplit, findBlankLine_append_line hrest, Option.map_map]
      congr 1
      funext n
      simp only [Function.comp_apply, List.length_append, List.length_cons, List.length_nil]
      omega

theorem findBlankLine_line_breaks (h : ∀ line ∈ lines, IsLine line) (rest : Payload) :
    findBlankLine ('\n' :: (linesText lines ++ (crlf ++ rest))) =
      some ((linesText lines).length + 2) := by
  induction lines with
  | nil => rfl
  | cons line lines ih =>
      have hline := h line List.mem_cons_self
      have htext : linesText (line :: lines) ++ (crlf ++ rest) =
          line ++ (crlf ++ (linesText lines ++ (crlf ++ rest))) := by
        simp [linesText]
      rw [htext, findBlankLine_line_break hline, ih fun l hl => h l (List.mem_cons_of_mem line hl)]
      simp only [linesText, crlf, Option.map_some, List.flatMap_cons, List.length_append,
        List.length_cons, List.length_nil, Option.some.injEq]
      omega

/-- The header ends at its blank line, when there is a line before that. -/
theorem findBlankLine_lines (h : ∀ line ∈ lines, IsLine line) (hne : lines ≠ []) (rest : Payload) :
    findBlankLine (linesText lines ++ (crlf ++ rest)) = some ((linesText lines).length + 1) := by
  obtain ⟨line, lines, rfl⟩ := List.exists_cons_of_ne_nil hne
  have hline := (h line List.mem_cons_self).2
  have hcr : '\n' ∉ line ++ ['\r'] := by
    intro hmem
    rcases List.mem_append.mp hmem with hmem | hmem
    · exact hline hmem
    · exact absurd hmem (by decide)
  have htext : linesText (line :: lines) ++ (crlf ++ rest) =
      (line ++ ['\r']) ++ ('\n' :: (linesText lines ++ (crlf ++ rest))) := by
    simp [linesText, crlf]
  rw [htext, findBlankLine_append_line hcr,
    findBlankLine_line_breaks fun l hl => h l (List.mem_cons_of_mem line hl)]
  simp only [linesText, crlf, Option.map_some, List.flatMap_cons, List.length_append,
    List.length_cons, List.length_nil, Option.some.injEq]
  omega

theorem two_le_of_findBlankLine (h : findBlankLine p = some n) : 2 ≤ n := by
  induction p generalizing n with
  | nil => cases h
  | cons c rest ih =>
      rw [findBlankLine.eq_def] at h
      simp only at h
      split_ifs at h
      · cases rest with
        | nil => cases h
        | cons d rest =>
            cases rest with
            | nil => cases h
            | cons e behind =>
                simp only at h
                split_ifs at h
                · cases h
                  exact Nat.le_refl 2
                · obtain ⟨m, -, rfl⟩ := Option.map_eq_some_iff.mp h
                  omega
      · obtain ⟨m, hm, rfl⟩ := Option.map_eq_some_iff.mp h
        exact Nat.le_succ_of_le (ih hm)

/-- What is found is there already, and stays where it is. -/
theorem findBlankLine_append (h : findBlankLine p = some n) (more : Payload) :
    findBlankLine (p ++ more) = some n ∧ n < p.length := by
  induction hlength : p.length using Nat.strongRecOn generalizing p n with
  | ind length ih =>
      cases p with
      | nil => cases h
      | cons c rest =>
          rw [List.length_cons] at hlength
          rw [findBlankLine.eq_def] at h
          rw [List.cons_append, findBlankLine.eq_def]
          simp only at h ⊢
          split_ifs at h ⊢ with hc
          · cases rest with
            | nil => cases h
            | cons d rest =>
                cases rest with
                | nil => cases h
                | cons e behind =>
                    simp only [List.cons_append] at h ⊢
                    simp only [List.length_cons] at hlength
                    split_ifs at h ⊢ with hcrlf
                    · cases h
                      exact ⟨rfl, by omega⟩
                    · obtain ⟨m, hm, rfl⟩ := Option.map_eq_some_iff.mp h
                      obtain ⟨hfound, hlt⟩ := ih behind.length (by omega) hm rfl
                      rw [hfound]
                      exact ⟨rfl, by omega⟩
          · obtain ⟨m, hm, rfl⟩ := Option.map_eq_some_iff.mp h
            obtain ⟨hfound, hlt⟩ := ih rest.length (by omega) hm rfl
            rw [hfound]
            exact ⟨rfl, by omega⟩

/-- It is found once it has come. -/
theorem findBlankLine_of_append (h : findBlankLine (p ++ more) = some n) (hn : n < p.length) :
    findBlankLine p = some n := by
  induction hlength : p.length using Nat.strongRecOn generalizing p n with
  | ind length ih =>
      cases p with
      | nil => cases hn
      | cons c rest =>
          rw [List.length_cons] at hlength hn
          rw [List.cons_append, findBlankLine.eq_def] at h
          rw [findBlankLine.eq_def]
          simp only at h ⊢
          split_ifs at h ⊢ with hc
          · have htwo := two_le_of_findBlankLine (p := c :: (rest ++ more)) (n := n) <| by
              rw [findBlankLine.eq_def]
              simp only [hc, if_true]
              exact h
            cases rest with
            | nil => exact absurd hn (by simp only [List.length_nil]; omega)
            | cons d rest =>
                cases rest with
                | nil => exact absurd hn (by simp only [List.length_cons, List.length_nil]; omega)
                | cons e behind =>
                    simp only [List.cons_append] at h ⊢
                    simp only [List.length_cons] at hlength hn
                    split_ifs at h ⊢ with hcrlf
                    · exact h
                    · rcases Option.map_eq_some_iff.mp h with ⟨m, hm, rfl⟩
                      rw [ih behind.length (by omega) hm (by omega) rfl]
                      rfl
          · rcases Option.map_eq_some_iff.mp h with ⟨m, hm, rfl⟩
            rw [ih rest.length (by omega) hm (by omega) rfl]
            rfl

/-- Once all of its lines have come a header is read, and not before. -/
theorem Header.parse_prefix {poco : Payload → PocoRead} {fields : List Field}
    (h : ∀ line ∈ lines, IsLine line) (hne : lines ≠ [])
    (hpoco : ∀ rest, poco (linesText lines ++ crlf ++ rest) = .fields fields)
    (hp : p <+: linesText lines ++ crlf ++ rest) (header : Header) :
    (linesText lines ++ crlf).length ≤ p.length ∧
        header.parse poco p = .parsed (linesText lines ++ crlf).length (header.setAll fields) ∨
      p.length < (linesText lines ++ crlf).length ∧ header.parse poco p = .incomplete := by
  have hfull := findBlankLine_lines h hne rest
  have hlength : (linesText lines ++ crlf).length = (linesText lines).length + 2 :=
    List.length_append
  rcases Nat.lt_or_ge p.length (linesText lines ++ crlf).length with hlt | hge
  · right
    refine ⟨hlt, ?_⟩
    have hnone : findBlankLine p = none := by
      cases hfound : findBlankLine p with
      | none => rfl
      | some n =>
          obtain ⟨more, hmore⟩ := hp
          obtain ⟨hsame, hn⟩ := findBlankLine_append hfound more
          rw [hmore, List.append_assoc, hfull] at hsame
          have hn' := Option.some.inj hsame
          omega
    rw [Header.parse, hnone]
    split <;> rfl
  · left
    refine ⟨hge, ?_⟩
    obtain ⟨q, rfl⟩ := List.prefix_of_prefix_length_le (List.prefix_append _ _) hp hge
    obtain ⟨line, lines, rfl⟩ := List.exists_cons_of_ne_nil hne
    have hpos := List.length_pos_iff.mpr (h line List.mem_cons_self).1
    have hlong : ¬ (linesText (line :: lines) ++ crlf ++ q).length < 4 := by
      simp only [linesText, crlf, List.flatMap_cons, List.length_append, List.length_cons,
        List.length_nil]
      omega
    have hfound := findBlankLine_lines h hne q
    rw [← List.append_assoc] at hfound
    rw [Header.parse, if_neg hlong, hfound, hlength]
    simp only [hpoco]

/-! ## The fields that are set -/

/-- No two fields have the same name. -/
def DistinctNames (fields : List Field) : Prop :=
  fields.Pairwise fun field field' => iequal field.1 field'.1 = false

instance (fields : List Field) : Decidable (DistinctNames fields) :=
  inferInstanceAs (Decidable (List.Pairwise _ _))

/-- There is no line break in a field, and no space around its name and its value. -/
structure IsField (field : Field) : Prop where
  name : '\n' ∉ field.1
  value : '\n' ∉ field.2
  trimmedName : trimmed field.1 = field.1
  trimmedValue : trimmed field.2 = field.2

variable {fields : List Field} {headers : List Field} {field : Field}

theorem writeField_eq (field : Field) :
    Header.writeField field = field.1 ++ (':' :: ' ' :: field.2) ++ crlf := by
  simp [Header.writeField, crlf]

theorem IsField.isLine (h : IsField field) : IsLine (field.1 ++ (':' :: ' ' :: field.2)) := by
  constructor
  · simp
  · intro hmem
    rcases List.mem_append.mp hmem with hmem | hmem
    · exact h.name hmem
    · exact h.value (by simpa using hmem)

/-- The fields of a header as lines. -/
def fieldLines (fields : List Field) : List Payload :=
  fields.map fun field => field.1 ++ (':' :: ' ' :: field.2)

theorem linesText_fieldLines (fields : List Field) :
    linesText (fieldLines fields) = fields.flatMap Header.writeField := by
  rw [linesText, fieldLines, List.flatMap_map]
  exact List.flatMap_congr fun field _ => (writeField_eq field).symm

theorem isLine_of_mem_fieldLines (h : ∀ field ∈ fields, IsField field) :
    ∀ line ∈ fieldLines fields, IsLine line := by
  intro line hline
  obtain ⟨field, hfield, rfl⟩ := List.mem_map.mp hline
  exact (h field hfield).isLine

theorem setField_of_new {key value : Payload} (h : ∀ field ∈ headers, iequal field.1 key = false) :
    Header.setField key value headers = headers ++ [(key, value)] := by
  induction headers with
  | nil => rfl
  | cons field headers ih =>
      have hfield := h field List.mem_cons_self
      rw [Header.setField, hfield, if_neg Bool.false_ne_true,
        ih fun g hg => h g (List.mem_cons_of_mem field hg)]
      rfl

theorem setField_length (key value : Payload) (headers : List Field) :
    (Header.setField key value headers).length =
      headers.length + if headers.any fun field => iequal field.1 key then 0 else 1 := by
  induction headers with
  | nil => rfl
  | cons field headers ih =>
      rw [Header.setField]
      cases hfield : iequal field.1 key with
      | true => simp [hfield]
      | false =>
          simp only [Bool.false_eq_true, if_false, List.length_cons, ih, List.any_cons, hfield,
            Bool.false_or]
          omega

/-- The fields, set as they are. -/
def setFields (headers fields : List Field) : List Field :=
  fields.foldl (fun headers field => Header.setField field.1 field.2 headers) headers

theorem setAll_chunked (header : Header) (fields : List Field) :
    (header.setAll fields).chunked =
      ((header.setAll fields).getTransferEncoding == chunkedWord) := rfl

def trimField (field : Field) : Field := (trimmed field.1, trimmed field.2)

theorem setAll_headers (header : Header) (fields : List Field) :
    (header.setAll fields).headers = setFields header.headers (fields.map trimField) := by
  rw [Header.setAll, setFields]
  show (fields.foldl (fun (h : Header) field => h.set (trimmed field.1) (trimmed field.2))
    header).headers = _
  induction fields generalizing header with
  | nil => rfl
  | cons field fields ih =>
      rw [List.foldl_cons, List.map_cons, List.foldl_cons, ih]
      rfl

theorem setFields_length_le (headers fields : List Field) :
    (setFields headers fields).length ≤ headers.length + fields.length := by
  induction fields generalizing headers with
  | nil => exact Nat.le_refl _
  | cons field fields ih =>
      have hrest := ih (Header.setField field.1 field.2 headers)
      have hlength := setField_length field.1 field.2 headers
      rw [setFields, List.foldl_cons, ← setFields, List.length_cons]
      split at hlength <;> omega

/-- The fields are all there, in order, if each one has a new name. -/
theorem setFields_eq_append_iff (headers fields : List Field) :
    setFields headers fields = headers ++ fields ↔
      (∀ field ∈ fields, ∀ old ∈ headers, iequal old.1 field.1 = false) ∧ DistinctNames fields := by
  induction fields generalizing headers with
  | nil => simp [setFields, DistinctNames]
  | cons field fields ih =>
      rw [setFields, List.foldl_cons, ← setFields]
      by_cases hnew : ∀ old ∈ headers, iequal old.1 field.1 = false
      · have hsplit : headers ++ field :: fields = headers ++ [field] ++ fields := by simp
        rw [setField_of_new hnew, hsplit, ih]
        simp only [List.mem_append, List.mem_singleton, DistinctNames, List.pairwise_cons,
          List.forall_mem_cons]
        constructor
        · rintro ⟨hrest, hdistinct⟩
          exact ⟨⟨hnew, fun g hg old hold => hrest g hg old (.inl hold)⟩,
            fun g hg => hrest g hg field (.inr rfl), hdistinct⟩
        · rintro ⟨⟨-, hrest⟩, hfirst, hdistinct⟩
          refine ⟨fun g hg old hold => ?_, hdistinct⟩
          rcases hold with hold | rfl
          · exact hrest g hg old hold
          · exact hfirst g hg
      · constructor
        · intro heq
          have hlength := congrArg List.length heq
          have hle := setFields_length_le (Header.setField field.1 field.2 headers) fields
          have hset := setField_length field.1 field.2 headers
          have hany : (headers.any fun old => iequal old.1 field.1) = true := by
            simpa using hnew
          rw [hany, if_pos rfl] at hset
          simp only [List.length_append, List.length_cons] at hlength
          omega
        · rintro ⟨hold, -⟩
          exact absurd (hold field List.mem_cons_self) hnew

/-- Fewer fields are there where two have the same name. -/
theorem setFields_of_length (h : (setFields headers fields).length = headers.length + fields.length) :
    setFields headers fields = headers ++ fields := by
  induction fields generalizing headers with
  | nil => exact (List.append_nil headers).symm
  | cons field fields ih =>
      have hle := setFields_length_le (Header.setField field.1 field.2 headers) fields
      have hset := setField_length field.1 field.2 headers
      rw [setFields, List.foldl_cons, ← setFields] at h ⊢
      rw [List.length_cons] at h
      split_ifs at hset with hany
      · omega
      · have hnew : ∀ old ∈ headers, iequal old.1 field.1 = false := by simpa using hany
        have hsplit : headers ++ field :: fields = headers ++ [field] ++ fields := by simp
        rw [ih (by omega), setField_of_new hnew, hsplit]

/-- A header that is read into an empty one has the fields as they are if nothing is trimmed off
them and their names are distinct. -/
theorem setAll_empty_iff (fields : List Field) :
    (Header.empty.setAll fields).headers = fields ↔
      fields.map trimField = fields ∧ DistinctNames fields := by
  have hiff := setFields_eq_append_iff [] fields
  simp only [List.nil_append, List.not_mem_nil, false_implies, implies_true, true_and] at hiff
  rw [setAll_headers]
  show setFields [] (fields.map trimField) = fields ↔ _
  constructor
  · intro h
    have hmap : setFields [] (fields.map trimField) = [] ++ fields.map trimField :=
      setFields_of_length (by rw [h, List.length_map, List.length_nil, Nat.zero_add])
    rw [h, List.nil_append] at hmap
    rw [← hmap] at h
    exact ⟨hmap.symm, hiff.mp h⟩
  · rintro ⟨hmap, hdistinct⟩
    rw [hmap]
    exact hiff.mpr hdistinct

theorem IsField.trimField_eq (h : IsField field) : trimField field = field :=
  Prod.ext h.trimmedName h.trimmedValue

/-- Nothing is trimmed off fields without space around their names and values. -/
theorem setAll_empty_iff_distinct (h : ∀ field ∈ fields, IsField field) :
    (Header.empty.setAll fields).headers = fields ↔ DistinctNames fields := by
  have hmap : fields.map trimField = fields := by
    rw [List.map_congr_left fun field hfield => (h field hfield).trimField_eq]
    exact List.map_id fields
  rw [setAll_empty_iff]
  simp only [hmap, true_and]

/-! ## The version -/

def VersionLen : Nat := 8

def digitValue (c : Char) : Nat := c.toNat - '0'.toNat

/-- The version of the protocol, and a whitespace behind it. -/
def isVersion : Payload → Bool
  | h :: t :: t' :: p :: slash :: major :: dot :: minor :: space :: _ =>
      h == 'H' && t == 'T' && t' == 'T' && p == 'P' && slash == '/' && major.isDigit &&
        dot == '.' && minor.isDigit && isWhitespace space
  | _ => false

theorem isWhitespace_of_isDigit {c : Char} (h : c.isDigit = true) : isWhitespace c = false := by
  simp only [isWhitespace, Bool.or_eq_false_iff, beq_eq_false_iff_ne]
  refine ⟨⟨?_, ?_⟩, ?_⟩ <;> rintro rfl <;> exact absurd h (by decide)

theorem isDigit_digitChar {n : Nat} (h : n < 10) : n.digitChar.isDigit = true := by
  rw [Nat.isDigit_digitChar]
  exact decide_eq_true h

theorem digitValue_digitChar {n : Nat} (h : n < 10) : digitValue n.digitChar = n := by
  have hall : ∀ d : Fin 10, digitValue d.val.digitChar = d := by decide
  exact hall ⟨n, h⟩

theorem skipSpaceAndTab_of_not {c : Char} (h : isWhitespace c = false) (p : Payload) :
    skipSpaceAndTab (c :: p) = c :: p := by
  rw [skipSpaceAndTab, List.dropWhile_cons, if_neg (by simp [h])]

theorem skipSpaceAndTab_space (p : Payload) : skipSpaceAndTab (' ' :: p) = skipSpaceAndTab p := rfl

/-- The digits of a version are written as numerals. -/
instance instNeZeroTen : NeZero 10 := inferInstance

/-- A version as it is sent. -/
def versionText (major minor : Fin 10) : Payload :=
  ['H', 'T', 'T', 'P', '/', major.val.digitChar, '.', minor.val.digitChar]

theorem isVersion_versionText {c : Char} (major minor : Fin 10) (hc : isWhitespace c = true)
    (p : Payload) : isVersion (versionText major minor ++ (c :: p)) = true := by
  have hmajor := isDigit_digitChar major.isLt
  have hminor := isDigit_digitChar minor.isLt
  simp [versionText, isVersion, hmajor, hminor, hc]

theorem skipSpaceAndTab_versionText (major minor : Fin 10) (p : Payload) :
    skipSpaceAndTab (versionText major minor ++ p) = versionText major minor ++ p :=
  skipSpaceAndTab_of_not (by decide) _

/-! ## A plain reader -/

/-- The name before the first colon, and the value behind it and its spaces. -/
def fieldOfLine (line : Payload) : Option Field :=
  match line.dropWhile (· != ':') with
  | [] => none
  | _ :: value => some (line.takeWhile (· != ':'), value.dropWhile (· == ' '))

/-- Reads fields that are one line each, and ignores lines without a colon, as Poco does. -/
def plainFields (lines : List Payload) (line : Payload) : Payload → PocoRead
  | [] => .failed
  | c :: rest =>
      if c = '\n' then
        if line = [] then .fields (lines.reverse.filterMap fieldOfLine)
        else plainFields (line.reverse :: lines) [] rest
      else if c = '\r' then plainFields lines line rest
      else plainFields lines (c :: line) rest

def plainRead (p : Payload) : PocoRead := plainFields [] [] p

end CoolOnline.Http
