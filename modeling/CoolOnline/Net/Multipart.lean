import CoolOnline.Library.Search
import CoolOnline.Net.HttpHeader

/-! # Multipart data

`MultipartDataParser` of `net/HttpRequest.cpp`, and multipart data as RFC 2046 has it written. The
parser is called again and again with what has arrived and has not been consumed.
-/

namespace CoolOnline.Http

open Search

inductive MultipartState
  | firstPart
  | nextPart
  | lastPart
deriving DecidableEq, Repr

def MaxLineLength : Nat := 512

/-- How `parsePart` ends: with everything consumed behind the last part, 0, -1, or a part. The body
is `none` where it would end before it begins. -/
inductive PartRead
  | epilogue (read : Nat)
  | incomplete
  | invalid
  | part (read : Nat) (header : Header) (body : Option Payload)
deriving DecidableEq, Repr

/-- Where a boundary starts, where its line ends (0 when it does not yet, -1 when it should have), and
whether it is the last one. -/
structure Boundary where
  start : Nat
  stop : Int
  last : Bool
deriving DecidableEq, Repr

structure MultipartDataParser where
  boundary : Payload
  state : MultipartState
deriving DecidableEq, Repr

def dashes : Payload := ['-', '-']

namespace MultipartDataParser

variable (m : MultipartDataParser)

def dashBoundary : Payload := dashes ++ m.boundary

def delimiter : Payload := crlf ++ m.dashBoundary

def isLast : Bool := m.state == .lastPart

/-- The first boundary from the offset on. -/
def findBoundary (data delimiter : Payload) (off : Nat) : Option Boundary :=
  (cutAt delimiter (data.drop off)).map fun parts =>
    let pos := off + parts.1.length
    if parts.2.length < 2 then ⟨pos, 0, false⟩
    else
      let last := parts.2.take 2 == dashes
      let lineBreak := findLineBreak parts.2
      if lineBreak = parts.2.length then
        ⟨pos, if MaxLineLength < parts.2.length then -1 else 0, last⟩
      else ⟨pos, pos + delimiter.length + lineBreak, last⟩

/-- The rest of `parsePart` behind the line of the first boundary, which is the last one or not. -/
def parseBehind (poco : Payload → PocoRead) (data : Payload) (header : Header) (stop : Nat)
    (last : Bool) : MultipartDataParser × PartRead :=
  match findBoundary data m.delimiter stop with
  | none => (m, .incomplete)
  | some next =>
      -- The flag of the first boundary is tested here again.
      if !last && next.stop == 0 then (m, .incomplete)
      else if next.stop < 0 then (m, .invalid)
      else
        let m := { m with state := if next.last then .lastPart else .nextPart }
        let data := data.drop stop
        match header.parse poco data with
        | .invalid => (m, .invalid)
        | .incomplete => (m, .incomplete)
        | .parsed off header =>
            let body :=
              if stop + off ≤ next.start then some ((data.drop off).take (next.start - stop - off))
              else none
            (m, .part next.start header body)

/-- `readPart`, which is `parsePart`. -/
def readPart (poco : Payload → PocoRead) (data : Payload) (header : Header) :
    MultipartDataParser × PartRead :=
  if m.isLast then (m, .epilogue data.length)
  else
    let delimiter :=
      if m.state = .firstPart ∧ m.dashBoundary <+: data then m.dashBoundary else m.delimiter
    match findBoundary data delimiter 0 with
    | none => (m, .incomplete)
    | some first =>
        if !first.last && first.stop == 0 then (m, .incomplete)
        else if first.stop < 0 then (m, .invalid)
        else m.parseBehind poco data header (first.stop + 1).toNat first.last

end MultipartDataParser

/-! ## Reading what has arrived -/

/-- Header fields and body of a part that has been read. -/
abbrev ReadPart := List Field × Option Payload

structure PartReader where
  parser : MultipartDataParser
  parts : List ReadPart
  buffer : Payload
  failed : Bool

/-- The parts that can be read now, each into a new header. -/
def readParts (poco : Payload → PocoRead) : Nat → PartReader → PartReader
  | 0, r => r
  | turns + 1, r =>
      match r.parser.readPart poco r.buffer .empty with
      | (m, .part read header body) =>
          readParts poco turns
            ⟨m, r.parts ++ [(header.headers, body)], r.buffer.drop read, false⟩
      | (m, .epilogue read) => ⟨m, r.parts, r.buffer.drop read, false⟩
      | (m, .incomplete) => ⟨m, r.parts, r.buffer, false⟩
      | (m, .invalid) => ⟨m, r.parts, r.buffer, true⟩

/-- More data has arrived; each part read takes one element at least. -/
def PartReader.receive (poco : Payload → PocoRead) (r : PartReader) (piece : Payload) :
    PartReader :=
  if r.failed then r
  else
    readParts poco ((r.buffer ++ piece).length + 1) { r with buffer := r.buffer ++ piece }

/-! ## Data as it is written -/

structure Part where
  fields : List Field
  body : Payload
deriving DecidableEq, Repr

/-- Header fields, a blank line and the body. -/
def Part.text (part : Part) : Payload :=
  part.fields.flatMap Header.writeField ++ (crlf ++ part.body)

/-- The boundary is one line, and no line of the preamble begins with it after the dashes. -/
structure Multipart where
  boundary : Payload
  preamble : Option Payload
  parts : List Part
  closes : Bool
  oneLine : '\r' ∉ boundary ∧ '\n' ∉ boundary
  hasParts : parts ≠ []
  ignored : ∀ text ∈ preamble, ¬ dashes ++ boundary <+: text ∧
    FirstAt (crlf ++ (dashes ++ boundary)) text
  areFields : ∀ part ∈ parts, ∀ field ∈ part.fields, IsField field

namespace Multipart

variable (d : Multipart)

def delimiter : Payload := crlf ++ (dashes ++ d.boundary)

/-- From behind the boundary of these parts on. -/
def behind (delimiter : Payload) (closes : Bool) : List Part → Payload
  | [] => dashes ++ if closes then crlf else []
  | part :: parts => crlf ++ (part.text ++ (delimiter ++ behind delimiter closes parts))

def opening : Payload :=
  match d.preamble with
  | none => dashes ++ d.boundary
  | some text => text ++ d.delimiter

/-- A CRLF is written after the closing delimiter or not. -/
def text : Payload := d.opening ++ behind d.delimiter d.closes d.parts

def start : PartReader := ⟨⟨d.boundary, .firstPart⟩, [], [], false⟩

def expected (parts : List Part) : List ReadPart := parts.map fun part => (part.fields, some part.body)

/-- Delivered in any pieces, the data is read as exactly its parts, in order. -/
def RoundTrips (poco : Payload → PocoRead) : Prop :=
  ∀ pieces : List Payload, pieces.flatten <+: d.text →
    (pieces.foldl (PartReader.receive poco) d.start).parts <+: expected d.parts ∧
      (pieces.flatten = d.text →
        (pieces.foldl (PartReader.receive poco) d.start).parts = expected d.parts ∧
          (pieces.foldl (PartReader.receive poco) d.start).parser.isLast = true)

/-- A part with a header, in which the boundary does not come on a line of its own. -/
structure Readable (delimiter : Payload) (part : Part) : Prop where
  hasFields : part.fields ≠ []
  distinct : DistinctNames part.fields
  first : FirstAt delimiter part.text

end Multipart

/-! ## Finding a boundary -/

namespace MultipartDataParser

variable {m : MultipartDataParser} {data word before mark more rest : Payload} {off stop : Nat}

theorem findBoundary_of_cutAt {behind : Payload}
    (h : cutAt word (data.drop off) = some (before, behind)) :
    findBoundary data word off = some
      (if behind.length < 2 then ⟨off + before.length, 0, false⟩
      else if findLineBreak behind = behind.length then
        ⟨off + before.length, if MaxLineLength < behind.length then -1 else 0,
          behind.take 2 == dashes⟩
      else ⟨off + before.length, off + before.length + word.length + findLineBreak behind,
        behind.take 2 == dashes⟩) := by
  rw [findBoundary, h]
  rfl

/-- What is found of a boundary whose line has not come to its end. -/
structure Cut (mark : Payload) (found : Option Boundary) : Prop where
  stop : ∀ b ∈ found, b.stop = 0
  last : mark = [] → ∀ b ∈ found, b.last = false

theorem not_mem_mark (hmark : mark = [] ∨ mark = dashes) : '\n' ∉ mark ++ ['\r'] := by
  rcases hmark with rfl | rfl <;> decide

/-- A line that has not come to its end. -/
theorem findBoundary_cut {behind : Payload} (hmark : mark = [] ∨ mark = dashes)
    (hcut : cutAt word (data.drop off) = some (before, behind))
    (hdata : data.drop off = before ++ (word ++ behind)) (hbehind : behind <+: mark ++ ['\r']) :
    Cut mark (findBoundary data word off) ∧
      (data.drop off).length < before.length + word.length + mark.length + 2 := by
  refine ⟨?_, by
    have hle := hbehind.length_le
    simp only [hdata, List.length_append, List.length_cons, List.length_nil] at hle ⊢
    omega⟩
  have hline : '\n' ∉ behind := fun hmem => not_mem_mark hmark (hbehind.mem hmem)
  have hshort : ¬ MaxLineLength < behind.length := by
    have hle := hbehind.length_le
    rcases hmark with rfl | rfl <;> simp [MaxLineLength, dashes] at hle ⊢ <;> omega
  rw [findBoundary_of_cutAt hcut]
  split
  · exact ⟨by simp, by simp⟩
  · rename_i hlong
    rw [if_pos (findLineBreak_of_not_mem hline)]
    refine ⟨by simp, ?_⟩
    rintro rfl
    have hle := hbehind.length_le
    simp only [List.nil_append, List.length_cons, List.length_nil] at hle
    omega

/-- A boundary is found as soon as its line has come to its end. -/
theorem findBoundary_of_prefix (hmark : mark = [] ∨ mark = dashes) (hfirst : FirstAt word before)
    (h : data.drop off <+: before ++ (word ++ (mark ++ (crlf ++ more)))) :
    Cut mark (findBoundary data word off) ∧
        (data.drop off).length < before.length + word.length + mark.length + 2 ∨
      ∃ more', more' <+: more ∧ data.drop off = before ++ (word ++ (mark ++ (crlf ++ more'))) ∧
        findBoundary data word off = some ⟨off + before.length,
          off + before.length + word.length + (mark.length + 1), mark == dashes⟩ := by
  rcases cutAt_of_prefix h hfirst with ⟨hnone, hlength⟩ | ⟨behind, hcut, hdata, hbehind⟩
  · left
    rw [findBoundary, hnone]
    exact ⟨⟨by simp, by simp⟩, by omega⟩
  · have hline : mark ++ (crlf ++ more) = mark ++ ['\r'] ++ ('\n' :: more) := by simp [crlf]
    rw [hline] at hbehind
    rcases List.prefix_or_prefix_of_prefix hbehind (List.prefix_append _ _) with hshort | ⟨tail, htail⟩
    · exact .inl (findBoundary_cut hmark hcut hdata hshort)
    · rw [← htail, List.prefix_append_right_inj] at hbehind
      cases tail with
      | nil =>
          rw [List.append_nil] at htail
          exact .inl (findBoundary_cut hmark hcut hdata (htail ▸ List.prefix_rfl))
      | cons c more' =>
          right
          obtain ⟨rfl, hmore⟩ := List.cons_prefix_cons.mp hbehind
          refine ⟨more', hmore, ?_, ?_⟩
          · rw [hdata, ← htail]
            simp [crlf]
          · have hbreak := findLineBreak_append (not_mem_mark hmark) more'
            have hlength : (mark ++ ['\r'] ++ '\n' :: more').length = mark.length + 2 + more'.length := by
              simp only [List.length_append, List.length_cons, List.length_nil]
              omega
            have hmark' : (mark ++ ['\r']).length = mark.length + 1 := by
              simp only [List.length_append, List.length_cons, List.length_nil]
            rw [findBoundary_of_cutAt hcut, ← htail, hbreak, if_neg (by omega), if_neg (by omega),
              hmark']
            rcases hmark with rfl | rfl <;> rfl

/-! ## Reading a part -/

variable {poco : Payload → PocoRead} {part : Part} {closes : Bool}

/-- Poco reads the fields that are written, and what is behind the header does not matter. -/
def ReadsFields (poco : Payload → PocoRead) (part : Part) : Prop :=
  ∀ rest, poco (part.fields.flatMap Header.writeField ++ (crlf ++ rest)) = .fields part.fields

theorem parse_fields (hpoco : ReadsFields poco part) (hfields : part.fields ≠ [])
    (hare : ∀ field ∈ part.fields, IsField field) (rest : Payload) :
    Header.empty.parse poco (part.fields.flatMap Header.writeField ++ (crlf ++ rest)) =
      .parsed ((part.fields.flatMap Header.writeField).length + 2)
        (Header.empty.setAll part.fields) := by
  have hne : fieldLines part.fields ≠ [] := by simpa [fieldLines] using hfields
  have hblank := findBlankLine_lines (isLine_of_mem_fieldLines hare) hne rest
  rw [linesText_fieldLines] at hblank
  have hlong : 4 ≤ (part.fields.flatMap Header.writeField).length := by
    obtain ⟨field, fields, hsplit⟩ := List.exists_cons_of_ne_nil hfields
    rw [hsplit, List.flatMap_cons, writeField_eq]
    simp only [crlf, List.length_append, List.length_cons, List.length_nil]
    omega
  rw [Header.parse, if_neg (by simp only [List.length_append]; omega), hblank]
  simp only [hpoco rest]

/-- The line of a boundary that a part follows has not come to its end, and nothing is read, or
the part is. -/
theorem parseBehind_of_readable (hmark : mark = [] ∨ mark = dashes)
    (hpart : Multipart.Readable m.delimiter part) (hpoco : ReadsFields poco part)
    (hare : ∀ field ∈ part.fields, IsField field)
    (h : data.drop stop <+: part.text ++ (m.delimiter ++ (mark ++ (crlf ++ more)))) :
    m.parseBehind poco data .empty stop false = (m, .incomplete) ∧
        (data.drop stop).length < part.text.length + m.delimiter.length + mark.length + 2 ∨
      ∃ more' header, more' <+: more ∧
        data.drop stop = part.text ++ (m.delimiter ++ (mark ++ (crlf ++ more'))) ∧
        header.headers = part.fields ∧
        m.parseBehind poco data .empty stop false =
          ({ m with state := if mark == dashes then .lastPart else .nextPart },
            .part (stop + part.text.length) header (some part.body)) := by
  rcases findBoundary_of_prefix hmark hpart.first h with
    ⟨hcut, hlength⟩ | ⟨more', hmore, hdata, hfound⟩
  · left
    refine ⟨?_, hlength⟩
    rw [parseBehind]
    cases hfound : findBoundary data m.delimiter stop with
    | none => rfl
    | some b => simp [hcut.stop b hfound]
  · right
    have hparse := parse_fields hpoco hpart.hasFields hare
      (part.body ++ (m.delimiter ++ (mark ++ (crlf ++ more'))))
    have htext : part.text ++ (m.delimiter ++ (mark ++ (crlf ++ more'))) =
        part.fields.flatMap Header.writeField ++
          (crlf ++ (part.body ++ (m.delimiter ++ (mark ++ (crlf ++ more'))))) := by
      simp only [Part.text, List.append_assoc]
    rw [← htext, ← hdata] at hparse
    refine ⟨more', Header.empty.setAll part.fields, hmore, hdata,
      (setAll_empty_iff_distinct hare).mpr hpart.distinct, ?_⟩
    have hlength : part.text.length =
        (part.fields.flatMap Header.writeField).length + 2 + part.body.length := by
      simp only [Part.text, crlf, List.length_append, List.length_cons, List.length_nil]
      omega
    have hbody : (data.drop stop).drop ((part.fields.flatMap Header.writeField).length + 2) =
        part.body ++ (m.delimiter ++ (mark ++ (crlf ++ more'))) := by
      rw [hdata, htext, ← List.append_assoc]
      exact List.drop_left' (by simp [crlf])
    have hstart : stop + part.text.length - stop -
        ((part.fields.flatMap Header.writeField).length + 2) = part.body.length := by
      omega
    generalize hvalue : (stop : Int) + part.text.length + m.delimiter.length + (mark.length + 1) =
      value at hfound
    have hzero : (value == 0) = false := beq_eq_false_iff_ne.mpr (by omega)
    have hneg : ¬ value < 0 := by omega
    have hle : stop + ((part.fields.flatMap Header.writeField).length + 2) ≤
        stop + part.text.length := by
      omega
    simp only [parseBehind, hfound, hzero, hneg, hparse, hbody, hstart, hle, Bool.and_false,
      Bool.false_eq_true, if_true, if_false, List.take_left]

/-- What is in front of the line break of a boundary that the parser is to find next. -/
def Opens (m : MultipartDataParser) (intro : Payload) : Prop :=
  m.state = .firstPart ∧ intro = m.dashBoundary ∨
    m.state ≠ .lastPart ∧ ∃ before, intro = before ++ m.delimiter ∧ FirstAt m.delimiter before ∧
      (m.state = .firstPart → ¬ m.dashBoundary <+: before)

theorem not_mem_dashBoundary (h : '\r' ∉ m.boundary) : '\r' ∉ m.dashBoundary := by
  simpa [dashBoundary, dashes] using h

/-- Where the boundary is not in front of the preamble it is not in front of what has come. -/
theorem not_dashBoundary_prefix (h : '\r' ∉ m.boundary) (hbefore : ¬ m.dashBoundary <+: before)
    (hdata : data <+: before ++ (m.delimiter ++ rest)) : ¬ m.dashBoundary <+: data := by
  intro hstart
  rcases List.prefix_or_prefix_of_prefix (hstart.trans hdata) (List.prefix_append _ _) with
    hshort | ⟨tail, htail⟩
  · exact hbefore hshort
  · have hall := hstart.trans hdata
    rw [← htail, List.prefix_append_right_inj, delimiter, crlf] at hall
    cases tail with
    | nil =>
        rw [List.append_nil] at htail
        exact hbefore (htail ▸ List.prefix_rfl)
    | cons c tail =>
        obtain ⟨rfl, -⟩ := List.cons_prefix_cons.mp hall
        exact not_mem_dashBoundary h (htail ▸ List.mem_append_right _ List.mem_cons_self)

theorem readPart_of_cut {delimiter : Payload} (hlast : m.state ≠ .lastPart)
    (hdelimiter : (if m.state = .firstPart ∧ m.dashBoundary <+: data then m.dashBoundary
      else m.delimiter) = delimiter) (h : Cut [] (findBoundary data delimiter 0)) :
    m.readPart poco data .empty = (m, .incomplete) := by
  have hlast' : m.isLast = false := by simpa [isLast] using hlast
  rw [readPart, hlast', if_neg Bool.false_ne_true]
  simp only [hdelimiter]
  cases hfound : findBoundary data delimiter 0 with
  | none => rfl
  | some b => simp [h.stop b hfound, h.last rfl b hfound]

theorem readPart_of_found {delimiter : Payload} (hlast : m.state ≠ .lastPart)
    (hdelimiter : (if m.state = .firstPart ∧ m.dashBoundary <+: data then m.dashBoundary
      else m.delimiter) = delimiter) {start : Nat} {value : Nat}
    (h : findBoundary data delimiter 0 = some ⟨start, value + 1, false⟩) :
    m.readPart poco data .empty = m.parseBehind poco data .empty (value + 2) false := by
  have hlast' : m.isLast = false := by simpa [isLast] using hlast
  have hzero : ((value : Int) + 1 == 0) = false := beq_eq_false_iff_ne.mpr (by omega)
  have hneg : ¬ (value : Int) + 1 < 0 := by omega
  have hstop : ((value : Int) + 1 + 1).toNat = value + 2 := by omega
  rw [readPart, hlast', if_neg Bool.false_ne_true]
  simp only [hdelimiter, h, hzero, hneg, hstop, Bool.and_false, Bool.false_eq_true, if_false]

/-- The line of the boundary in front of a part has not come to its end, and nothing is read, or
what is behind it is parsed. -/
theorem readPart_of_opens (hboundary : '\r' ∉ m.boundary) {intro : Payload} (hopens : Opens m intro)
    (h : data <+: intro ++ (crlf ++ rest)) :
    m.readPart poco data .empty = (m, .incomplete) ∧ data.length < intro.length + 2 ∨
      ∃ rest', rest' <+: rest ∧ data = intro ++ (crlf ++ rest') ∧
        m.readPart poco data .empty = m.parseBehind poco data .empty (intro.length + 2) false := by
  rcases hopens with ⟨hstate, rfl⟩ | ⟨hlast, before, rfl, hfirst, hbefore⟩
  · have hlast : m.state ≠ .lastPart := by simp [hstate]
    by_cases hdash : m.dashBoundary <+: data
    · have hdelimiter : (if m.state = .firstPart ∧ m.dashBoundary <+: data then m.dashBoundary
          else m.delimiter) = m.dashBoundary := if_pos ⟨hstate, hdash⟩
      have h' : data.drop 0 <+: [] ++ (m.dashBoundary ++ ([] ++ (crlf ++ rest))) := h
      rcases findBoundary_of_prefix (.inl rfl) (firstAt_nil _) h' with
        ⟨hcut, hlength⟩ | ⟨more', hmore, hdata, hfound⟩
      · exact .inl ⟨readPart_of_cut hlast hdelimiter hcut, by simpa using hlength⟩
      · right
        have hfound' : findBoundary data m.dashBoundary 0 =
            some ⟨0, (m.dashBoundary.length : Int) + 1, false⟩ := by
          simpa [dashes] using hfound
        exact ⟨more', hmore, hdata, readPart_of_found hlast hdelimiter hfound'⟩
    · have hdelimiter : (if m.state = .firstPart ∧ m.dashBoundary <+: data then m.dashBoundary
          else m.delimiter) = m.delimiter := if_neg fun h => hdash h.2
      left
      have hshort : data <+: m.dashBoundary :=
        (List.prefix_or_prefix_of_prefix h (List.prefix_append _ _)).resolve_right hdash
      refine ⟨readPart_of_cut hlast hdelimiter ?_, Nat.lt_succ_of_le (Nat.le_succ_of_le hshort.length_le)⟩
      have hnone : cutAt m.delimiter (data.drop 0) = none := by
        cases hcut : cutAt m.delimiter (data.drop 0) with
        | none => rfl
        | some parts =>
            have hlength := congrArg List.length (cutAt_eq_some hcut).1
            have hle := hshort.length_le
            simp only [List.drop_zero, delimiter, crlf, List.length_append, List.length_cons,
              List.length_nil] at hlength
            omega
      rw [findBoundary, hnone]
      exact ⟨by simp, by simp⟩
  · rw [List.append_assoc] at h
    have hdelimiter : (if m.state = .firstPart ∧ m.dashBoundary <+: data then m.dashBoundary
        else m.delimiter) = m.delimiter :=
      if_neg fun hdash => not_dashBoundary_prefix hboundary (hbefore hdash.1) h hdash.2
    have h' : data.drop 0 <+: before ++ (m.delimiter ++ ([] ++ (crlf ++ rest))) := h
    rcases findBoundary_of_prefix (.inl rfl) hfirst h' with
      ⟨hcut, hlength⟩ | ⟨more', hmore, hdata, hfound⟩
    · refine .inl ⟨readPart_of_cut hlast hdelimiter hcut, ?_⟩
      simpa only [List.drop_zero, List.length_append, List.length_nil, Nat.add_zero] using hlength
    · right
      have hfound' : findBoundary data m.delimiter 0 =
          some ⟨before.length, ((before.length + m.delimiter.length : Nat) : Int) + 1, false⟩ := by
        simpa [dashes] using hfound
      rw [List.length_append]
      refine ⟨more', hmore, ?_, readPart_of_found hlast hdelimiter hfound'⟩
      rw [List.append_assoc]
      exact hdata

end MultipartDataParser

/-! ## Reading all parts -/

open MultipartDataParser

variable {poco : Payload → PocoRead} {d : Multipart} {r : PartReader} {more : Payload}
  {left : List Part} {part : Part}

namespace Multipart

/-- What has been read so far, and what is still to come. -/
inductive Reading (d : Multipart) (r : PartReader) (more : Payload) : Prop
  | reading (read left : List Part) (intro : Payload) (hparts : d.parts = read ++ left)
      (hleft : left ≠ []) (hread : r.parts = expected read)
      (hboundary : r.parser.boundary = d.boundary) (hopens : Opens r.parser intro)
      (htext : r.buffer ++ more = intro ++ behind d.delimiter d.closes left)
      (hfailed : r.failed = false)
  | done (hread : r.parts = expected d.parts) (hlast : r.parser.isLast = true)
      (hfailed : r.failed = false)

/-- All parts can be read, and a CRLF is written after the closing delimiter. -/
structure AllReadable (d : Multipart) (poco : Payload → PocoRead) : Prop where
  closes : d.closes = true
  readable : ∀ part ∈ d.parts, Readable d.delimiter part
  poco : ∀ part ∈ d.parts, ReadsFields poco part

/-- Behind a part there is the line of a boundary. -/
theorem behind_eq_mark (delimiter : Payload) (left : List Part) :
    ∃ mark more, (mark = [] ∨ mark = dashes) ∧ (mark == dashes) = left.isEmpty ∧
      behind delimiter true left = mark ++ (crlf ++ more) := by
  cases left with
  | nil => exact ⟨dashes, [], .inr rfl, rfl, rfl⟩
  | cons part left => exact ⟨[], _, .inl rfl, rfl, rfl⟩

theorem delimiter_eq {m : MultipartDataParser} (h : m.boundary = d.boundary) :
    m.delimiter = d.delimiter := by
  rw [MultipartDataParser.delimiter, dashBoundary, h, Multipart.delimiter]

/-- Where the next part is all there, it is read. -/
theorem readPart_reading (h : d.AllReadable poco) {read : List Part} {intro data : Payload}
    {m : MultipartDataParser} (hparts : d.parts = read ++ part :: left)
    (hboundary : m.boundary = d.boundary) (hopens : Opens m intro)
    (htext : data ++ more = intro ++ behind d.delimiter d.closes (part :: left)) :
    m.readPart poco data .empty = (m, .incomplete) ∧ more ≠ [] ∨
      ∃ rest header, data = intro ++ (crlf ++ (part.text ++ rest)) ∧
        rest ++ more = d.delimiter ++ behind d.delimiter d.closes left ∧
        header.headers = part.fields ∧
        m.readPart poco data .empty =
          ({ m with state := if left.isEmpty then .lastPart else .nextPart },
            .part (intro.length + 2 + part.text.length) header (some part.body)) := by
  have hpart : part ∈ d.parts := by simp [hparts]
  have hdelimiter := delimiter_eq hboundary
  obtain ⟨mark, tail, hmark, hlast, hbehind⟩ := behind_eq_mark d.delimiter left
  have hcr : '\r' ∉ m.boundary := hboundary ▸ d.oneLine.1
  rw [behind, h.closes, hbehind] at htext
  rcases readPart_of_opens hcr hopens ⟨more, htext⟩ with
    ⟨hwait, hlength⟩ | ⟨rest, hrest, hdata, hparse⟩
  · refine .inl ⟨hwait, ?_⟩
    rintro rfl
    have hall := congrArg List.length htext
    simp only [crlf, List.append_nil, List.length_append, List.length_cons, List.length_nil] at hall
    omega
  · have hdrop : data.drop (intro.length + 2) = rest := by
      rw [hdata, ← List.append_assoc]
      exact List.drop_left' (by simp [crlf])
    rw [← hdrop, ← hdelimiter] at hrest
    have hreadable : Readable m.delimiter part := hdelimiter ▸ h.readable part hpart
    rcases parseBehind_of_readable hmark hreadable (h.poco part hpart)
        (d.areFields part hpart) hrest with
      ⟨hwait, hlength⟩ | ⟨tail', header, htail, hdata', hheader, hread⟩
    · refine .inl ⟨hparse.trans hwait, ?_⟩
      rintro rfl
      have hall := congrArg List.length htext
      rw [hdata] at hall
      rw [hdrop] at hlength
      simp only [crlf, hdelimiter, List.append_nil, List.length_append, List.length_cons,
        List.length_nil] at hall hlength
      omega
    · right
      rw [hdrop, hdelimiter] at hdata'
      refine ⟨d.delimiter ++ (mark ++ (crlf ++ tail')), header, ?_, ?_, hheader, ?_⟩
      · rw [hdata, hdata']
      · rw [hdata, hdata'] at htext
        simp only [List.append_assoc] at htext
        have hcancel := List.append_cancel_left (List.append_cancel_left
          (List.append_cancel_left htext))
        rw [h.closes, hbehind, ← hcancel]
        simp only [List.append_assoc]
      · rw [hparse, hread, hlast]

theorem reading_readParts (h : d.AllReadable poco) {turns : Nat} (hturns : r.buffer.length < turns)
    (hr : d.Reading r more) :
    d.Reading (readParts poco turns r) more ∧
      (more = [] → (readParts poco turns r).parts = expected d.parts ∧
        (readParts poco turns r).parser.isLast = true) := by
  induction turns generalizing r with
  | zero => exact absurd hturns (Nat.not_lt_zero _)
  | succ turns ih =>
      cases hr with
      | done hread hlast hfailed =>
          have hpart : r.parser.readPart poco r.buffer .empty =
              (r.parser, .epilogue r.buffer.length) := by
            rw [MultipartDataParser.readPart, if_pos hlast]
          rw [readParts, hpart]
          exact ⟨.done hread hlast rfl, fun _ => ⟨hread, hlast⟩⟩
      | reading read left intro hparts hleft hread hboundary hopens htext hfailed =>
          obtain ⟨part, left, rfl⟩ := List.exists_cons_of_ne_nil hleft
          rcases readPart_reading h hparts hboundary hopens htext with
            ⟨hwait, hmore⟩ | ⟨rest, header, hdata, hrest, hheader, hpart⟩
          · rw [readParts, hwait]
            exact ⟨.reading read _ intro hparts hleft hread hboundary hopens htext rfl,
              fun hnil => absurd hnil hmore⟩
          · rw [readParts, hpart]
            simp only
            have hdrop : r.buffer.drop (intro.length + 2 + part.text.length) = rest := by
              rw [hdata, ← List.append_assoc, ← List.append_assoc]
              apply List.drop_left'
              simp only [crlf, List.length_append, List.length_cons, List.length_nil]
            have hparts' : r.parts ++ [(header.headers, some part.body)] =
                expected (read ++ [part]) := by
              simp [hread, hheader, expected]
            rw [hdrop, hparts']
            have hshorter : rest.length < turns := by
              rw [hdata] at hturns
              simp only [crlf, List.length_append, List.length_cons, List.length_nil] at hturns
              omega
            apply ih hshorter
            cases left with
            | nil => exact .done (by rw [hparts]) rfl rfl
            | cons next left =>
                refine .reading (read ++ [part]) (next :: left) d.delimiter (by simp [hparts])
                  (List.cons_ne_nil _ _) rfl hboundary (.inr ⟨?_, [], ?_, firstAt_nil _, ?_⟩) hrest
                  rfl
                · simp
                · exact (delimiter_eq hboundary).symm
                · exact fun hfirst => by simp at hfirst

theorem reading_receive (h : d.AllReadable poco) {piece : Payload} (hr : d.Reading r (piece ++ more)) :
    d.Reading (r.receive poco piece) more ∧
      (more = [] → (r.receive poco piece).parts = expected d.parts ∧
        (r.receive poco piece).parser.isLast = true) := by
  have hfailed : r.failed = false := by cases hr <;> assumption
  have happended : d.Reading { r with buffer := r.buffer ++ piece } more := by
    cases hr with
    | done hread hlast _ => exact .done hread hlast hfailed
    | reading read left intro hparts hleft hread hboundary hopens htext _ =>
        exact .reading read left intro hparts hleft hread hboundary hopens
          (by rw [List.append_assoc]; exact htext) hfailed
  have hreceive : r.receive poco piece = readParts poco ((r.buffer ++ piece).length + 1)
      { r with buffer := r.buffer ++ piece } := by
    rw [PartReader.receive, if_neg (hfailed ▸ Bool.false_ne_true)]
  rw [hreceive]
  exact reading_readParts h (Nat.lt_succ_self _) happended

theorem reading_pieces (h : d.AllReadable poco) (pieces : List Payload)
    (hr : d.Reading r (pieces.flatten ++ more)) :
    d.Reading (pieces.foldl (PartReader.receive poco) r) more := by
  induction pieces generalizing r with
  | nil => exact hr
  | cons piece pieces ih =>
      rw [List.flatten_cons, List.append_assoc] at hr
      exact ih (reading_receive h hr).1

theorem Reading.parts_prefix (hr : d.Reading r more) : r.parts <+: expected d.parts := by
  cases hr with
  | done hread _ _ => exact hread ▸ List.prefix_rfl
  | reading read left intro hparts hleft hread _ _ _ _ =>
      rw [hread, hparts, expected, expected, List.map_append]
      exact List.prefix_append _ _

theorem opens_opening : Opens d.start.parser d.opening := by
  cases hpreamble : d.preamble with
  | none =>
      left
      exact ⟨rfl, by rw [opening, hpreamble]; rfl⟩
  | some text =>
      right
      obtain ⟨hdash, hfirst⟩ := d.ignored text hpreamble
      exact ⟨by simp [start], text, by rw [opening, hpreamble]; rfl, hfirst, fun _ => hdash⟩

theorem reading_start : d.Reading d.start d.text :=
  .reading [] d.parts d.opening rfl d.hasParts rfl rfl opens_opening rfl rfl

theorem roundTrips_of_allReadable (h : d.AllReadable poco) : d.RoundTrips poco := by
  intro pieces hstart
  obtain ⟨more, hmore⟩ := hstart
  have hpieces : d.Reading (pieces.foldl (PartReader.receive poco) d.start) more :=
    reading_pieces h pieces (hmore ▸ reading_start)
  refine ⟨hpieces.parts_prefix, fun hall => ?_⟩
  have hnil : more = [] := by
    rw [hall] at hmore
    exact List.append_right_eq_self.mp hmore
  subst hnil
  cases hpieces with
  | done hread hlast _ => exact ⟨hread, hlast⟩
  | reading read left intro hparts hleft hread hboundary hopens htext hfailed =>
      -- There is a last piece: nothing is read without one, and there is something to read.
      rcases List.eq_nil_or_concat pieces with rfl | ⟨pieces', piece, rfl⟩
      · have htext' : d.opening ++ behind d.delimiter d.closes d.parts = [] := hall.symm
        obtain ⟨part, parts, hsplit⟩ := List.exists_cons_of_ne_nil d.hasParts
        rw [hsplit] at htext'
        simp [behind, crlf] at htext'
      · rw [List.append_nil] at hmore
        have hlast : d.Reading (pieces'.foldl (PartReader.receive poco) d.start) (piece ++ []) := by
          apply reading_pieces h pieces'
          rw [List.append_nil]
          have hjoin : pieces'.flatten ++ piece = d.text := by simpa using hmore
          exact hjoin ▸ reading_start
        rw [List.concat_eq_append, List.foldl_append]
        exact (reading_receive h hlast).2 rfl

/-! ## Parts that are not read -/

theorem readParts_prefix (turns : Nat) (r : PartReader) :
    r.parts <+: (readParts poco turns r).parts := by
  induction turns generalizing r with
  | zero => exact List.prefix_rfl
  | succ turns ih =>
      rw [readParts]
      split
      · refine List.IsPrefix.trans ?_ (ih _)
        exact List.prefix_append _ _
      · exact List.prefix_rfl
      · exact List.prefix_rfl
      · exact List.prefix_rfl

/-- The header is read to the end of its blank line at least, and further when it has no field. -/
theorem parse_length {rest : Payload} {read : Nat} {header : Header}
    (hare : ∀ field ∈ part.fields, IsField field)
    (h : Header.empty.parse poco (part.fields.flatMap Header.writeField ++ (crlf ++ rest)) =
      .parsed read header) :
    (part.fields.flatMap Header.writeField).length + 2 ≤ read ∧
      (part.fields = [] → (part.fields.flatMap Header.writeField).length + 2 < read) := by
  rw [Header.parse] at h
  split_ifs at h
  cases hfields : part.fields with
  | nil =>
      rw [hfields] at h
      cases hblank : findBlankLine (crlf ++ rest) with
      | none => simp [hblank] at h
      | some n =>
          have hline : findBlankLine (crlf ++ rest) = (findBlankLine ('\n' :: rest)).map (· + 1) :=
            findBlankLine_append_line (by decide : '\n' ∉ ['\r']) ('\n' :: rest)
          rw [hline] at hblank
          obtain ⟨m, hm, rfl⟩ := Option.map_eq_some_iff.mp hblank
          have htwo := two_le_of_findBlankLine hm
          simp only [List.flatMap_nil, List.nil_append, hline, hm, Option.map_some] at h
          split at h <;> simp only [reduceCtorEq, Parsed.parsed.injEq] at h
          simp only [List.flatMap_nil, List.length_nil]
          omega
  | cons field fields =>
      have hne : fieldLines part.fields ≠ [] := by simp [fieldLines, hfields]
      have hblank := findBlankLine_lines (isLine_of_mem_fieldLines hare) hne rest
      rw [linesText_fieldLines] at hblank
      rw [hblank] at h
      simp only at h
      split at h <;> simp only [reduceCtorEq, Parsed.parsed.injEq] at h
      rw [← hfields]
      exact ⟨by omega, fun hnil => by simp [hfields] at hnil⟩

/-- A part that is read as it was written can be read. -/
theorem readable_of_parseBehind {m m' : MultipartDataParser} {data tail : Payload} {stop read : Nat}
    {header : Header} (hpoco : ReadsFields poco part) (hare : ∀ field ∈ part.fields, IsField field)
    (hdata : data.drop stop = part.text ++ (m.delimiter ++ tail))
    (h : m.parseBehind poco data .empty stop false = (m', .part read header (some part.body)))
    (hheader : header.headers = part.fields) : Readable m.delimiter part := by
  rw [parseBehind] at h
  split at h
  · cases h
  rename_i next hfound
  generalize hstate : ({ m with
    state := if next.last then MultipartState.lastPart else .nextPart } : MultipartDataParser) = m₁
    at h
  split at h
  · cases h
  split at h
  · cases h
  simp only at h
  split at h
  · cases h
  · cases h
  rename_i off header' hparse
  simp only [Prod.mk.injEq, PartRead.part.injEq] at h
  obtain ⟨-, hread, rfl, hbody⟩ := h
  split_ifs at hbody with hle
  have htake := congrArg List.length (Option.some.inj hbody)
  -- The header ends where it was written, or later.
  have htext : part.text ++ (m.delimiter ++ tail) =
      part.fields.flatMap Header.writeField ++
        (crlf ++ (part.body ++ (m.delimiter ++ tail))) := by
    simp only [Part.text, List.append_assoc]
  have hlength : part.text.length =
      (part.fields.flatMap Header.writeField).length + 2 + part.body.length := by
    simp only [Part.text, crlf, List.length_append, List.length_cons, List.length_nil]
    omega
  have hset : header' = Header.empty.setAll part.fields := by
    rw [Header.parse] at hparse
    split_ifs at hparse
    split at hparse
    · cases hparse
    · rw [hdata, htext, hpoco] at hparse
      cases hparse
      rfl
  rw [hdata, htext] at hparse
  obtain ⟨hoff, hempty⟩ := parse_length hare hparse
  -- The boundary is found where it was written, or earlier.
  cases hcut : cutAt m.delimiter (data.drop stop) with
  | none => simp [findBoundary, hcut] at hfound
  | some parts =>
      obtain ⟨before, behind⟩ := parts
      have hstart : next.start = stop + before.length := by
        rw [findBoundary_of_cutAt hcut, Option.some.injEq] at hfound
        rw [← hfound]
        simp only [apply_ite Boundary.start, ite_self]
      obtain ⟨hsplit, hfirst⟩ := cutAt_eq_some hcut
      have hbefore : before.length ≤ part.text.length :=
        hfirst.length_le (hsplit.symm.trans hdata)
      rw [List.length_take] at htake
      have hsame : before.length = part.text.length := by omega
      have htext' : before = part.text :=
        (List.append_inj (hsplit.symm.trans hdata) hsame).1
      refine ⟨fun hnil => ?_, ?_, htext' ▸ hfirst⟩
      · have hlonger := hempty hnil
        omega
      · exact (setAll_empty_iff_distinct hare).mp (hset ▸ hheader)

/-- Without a CRLF after the closing delimiter nothing is read. -/
theorem parseBehind_of_open {m : MultipartDataParser} {data text : Payload} {stop : Nat}
    (hfirst : FirstAt m.delimiter text) (hdata : data.drop stop = text ++ (m.delimiter ++ dashes)) :
    m.parseBehind poco data .empty stop false = (m, .incomplete) := by
  have hcut := cutAt_of_firstAt hfirst dashes
  rw [← hdata] at hcut
  have hfound := (findBoundary_cut (.inr rfl) hcut hdata (by decide)).1
  rw [parseBehind]
  cases hnext : findBoundary data m.delimiter stop with
  | none => rfl
  | some b => simp [hfound.stop b hnext]

theorem allReadable_of_readParts (hpoco : ∀ part ∈ d.parts, ReadsFields poco part) {turns : Nat}
    {read left : List Part} {intro : Payload} (hparts : d.parts = read ++ left) (hleft : left ≠ [])
    (hboundary : r.parser.boundary = d.boundary) (hopens : Opens r.parser intro)
    (htext : r.buffer = intro ++ behind d.delimiter d.closes left)
    (h : (readParts poco turns r).parts = r.parts ++ expected left) :
    d.closes = true ∧ ∀ part ∈ left, Readable d.delimiter part := by
  induction turns generalizing r read left intro with
  | zero =>
      have hnil : expected left = [] := List.self_eq_append_right.mp h
      exact absurd (List.map_eq_nil_iff.mp hnil) hleft
  | succ turns ih =>
      obtain ⟨part, left, rfl⟩ := List.exists_cons_of_ne_nil hleft
      have hmem : part ∈ d.parts := by simp [hparts]
      have hdelimiter := delimiter_eq hboundary
      have hcr : '\r' ∉ r.parser.boundary := hboundary ▸ d.oneLine.1
      have hall : r.buffer <+: intro ++ (crlf ++ (part.text ++ (d.delimiter ++
          behind d.delimiter d.closes left))) := htext ▸ List.prefix_rfl
      rcases readPart_of_opens hcr hopens hall with ⟨-, hlength⟩ | ⟨rest, -, hdata, hparse⟩
      · rw [htext] at hlength
        simp only [behind, crlf, List.length_append, List.length_cons, List.length_nil] at hlength
        omega
      have hrest : rest = part.text ++ (r.parser.delimiter ++ behind d.delimiter d.closes left) := by
        rw [hdelimiter]
        exact List.append_cancel_left (List.append_cancel_left (hdata.symm.trans htext))
      have hdrop : r.buffer.drop (intro.length + 2) = rest := by
        rw [hdata, ← List.append_assoc]
        exact List.drop_left' (by simp [crlf])
      rw [readParts, hparse] at h
      have hnone (parts : List ReadPart) (hsame : parts = r.parts) :
          parts ≠ r.parts ++ expected (part :: left) := by
        rw [hsame]
        intro heq
        have hnil : expected (part :: left) = [] := List.self_eq_append_right.mp heq
        cases hnil
      cases hpart : r.parser.parseBehind poco r.buffer .empty (intro.length + 2) false with
      | mk m' result =>
          rw [hpart] at h
          cases result with
          | epilogue n => exact absurd h (hnone _ rfl)
          | incomplete => exact absurd h (hnone _ rfl)
          | invalid => exact absurd h (hnone _ rfl)
          | part n header body =>
              simp only at h
              have hentry : (header.headers, body) = (part.fields, some part.body) := by
                have hstart : r.parts ++ [(header.headers, body)] <+:
                    (readParts poco turns
                      ⟨m', r.parts ++ [(header.headers, body)], r.buffer.drop n, false⟩).parts :=
                  readParts_prefix turns
                    ⟨m', r.parts ++ [(header.headers, body)], r.buffer.drop n, false⟩
                rw [h] at hstart
                have hone := (List.prefix_append_right_inj r.parts).mp hstart
                exact (List.cons_prefix_cons.mp hone).1
              obtain ⟨hheader, rfl⟩ := Prod.mk.inj hentry
              have hreadable := readable_of_parseBehind (hpoco part hmem) (d.areFields part hmem)
                (hdrop.trans hrest) hpart hheader
              cases left with
              | nil =>
                  cases hcloses : d.closes with
                  | true =>
                      refine ⟨rfl, fun p hp => ?_⟩
                      rw [List.mem_singleton.mp hp, ← hdelimiter]
                      exact hreadable
                  | false =>
                      have hdashes : behind d.delimiter d.closes [] = dashes := by
                        rw [hcloses]
                        rfl
                      rw [hdashes] at hrest
                      rw [parseBehind_of_open hreadable.first (hdrop.trans hrest)] at hpart
                      cases hpart
              | cons next left =>
                  have hbehind : r.buffer.drop (intro.length + 2) <+: part.text ++
                      (r.parser.delimiter ++ ([] ++ (crlf ++ (next.text ++ (d.delimiter ++
                        behind d.delimiter d.closes left))))) := by
                    rw [hdrop, hrest]
                    exact List.prefix_rfl
                  rcases parseBehind_of_readable (.inl rfl) hreadable (hpoco part hmem)
                      (d.areFields part hmem) hbehind with
                    ⟨hwait, -⟩ | ⟨more', header', -, -, -, hresult⟩
                  · rw [hwait] at hpart
                    cases hpart
                  · rw [hresult] at hpart
                    cases hpart
                    have hread : r.buffer.drop (intro.length + 2 + part.text.length) =
                        d.delimiter ++ behind d.delimiter d.closes (next :: left) := by
                      rw [← List.drop_drop, hdrop, hrest, List.drop_left, hdelimiter]
                    have hparts' : d.parts = (read ++ [part]) ++ next :: left := by simp [hparts]
                    have hopens' : Opens { r.parser with state := .nextPart } d.delimiter :=
                      .inr ⟨by simp, [], (delimiter_eq hboundary).symm, firstAt_nil _, by simp⟩
                    have hexpected : r.parts ++ expected (part :: next :: left) =
                        r.parts ++ [(header.headers, some part.body)] ++
                          expected (next :: left) := by
                      simp [expected, hheader]
                    rw [hexpected] at h
                    have hleft' := ih (r := ⟨{ r.parser with state := .nextPart },
                      r.parts ++ [(header.headers, some part.body)],
                      r.buffer.drop (intro.length + 2 + part.text.length), false⟩)
                      hparts' (List.cons_ne_nil next left) hboundary hopens' hread h
                    refine ⟨hleft'.1, fun p hp => ?_⟩
                    rcases List.mem_cons.mp hp with rfl | hp
                    · rw [← hdelimiter]
                      exact hreadable
                    · exact hleft'.2 p hp

theorem allReadable_of_roundTrips (hpoco : ∀ part ∈ d.parts, ReadsFields poco part)
    (h : d.RoundTrips poco) : d.AllReadable poco := by
  have hall := (h [d.text] (by simp)).2 (by simp)
  have hreceive : [d.text].foldl (PartReader.receive poco) d.start =
      readParts poco (d.text.length + 1) { d.start with buffer := d.text } := rfl
  rw [hreceive] at hall
  have hreadable := allReadable_of_readParts (r := { d.start with buffer := d.text }) hpoco
    (List.nil_append d.parts).symm d.hasParts rfl opens_opening rfl hall.1
  exact ⟨hreadable.1, hreadable.2, hpoco⟩

/-- Multipart data is read as its parts exactly when each part has a header field, no name comes
twice in its header and the boundary does not come on a line of its own, and a CRLF is written
after the closing delimiter. -/
theorem roundTrips_iff (hpoco : ∀ part ∈ d.parts, ReadsFields poco part) :
    d.RoundTrips poco ↔ d.closes = true ∧ ∀ part ∈ d.parts, Readable d.delimiter part := by
  constructor
  · intro h
    have hall := allReadable_of_roundTrips hpoco h
    exact ⟨hall.closes, hall.readable⟩
  · rintro ⟨hcloses, hreadable⟩
    exact roundTrips_of_allReadable ⟨hcloses, hreadable, hpoco⟩

/-- One part with the body "x", whose closing delimiter is the end of the data or not. -/
def onePart (closes : Bool) : Multipart where
  boundary := ['b']
  preamble := none
  parts := [⟨[(['A'], ['1'])], ['x']⟩]
  closes := closes
  oneLine := by decide
  hasParts := by simp
  ignored := by simp
  areFields := by
    intro part hpart field hfield
    rw [List.mem_singleton.mp hpart, List.mem_singleton] at hfield
    subst hfield
    exact ⟨by decide, by decide, by decide, by decide⟩

theorem readsFields_onePart (closes : Bool) :
    ∀ part ∈ (onePart closes).parts, ReadsFields plainRead part := by
  intro part hpart rest
  rw [List.mem_singleton.mp hpart]
  rfl

theorem roundTrips_iff_onePart :
    (∀ part ∈ (onePart true).parts, ReadsFields plainRead part) ∧
      ((onePart true).RoundTrips plainRead ↔ (onePart true).closes = true ∧
        ∀ part ∈ (onePart true).parts, Readable (onePart true).delimiter part) :=
  ⟨readsFields_onePart true, roundTrips_iff (readsFields_onePart true)⟩

/-- The last part is not read while no CRLF comes after the closing delimiter. -/
theorem not_roundTrips_open : ¬ ∀ (poco : Payload → PocoRead) (d : Multipart),
    (∀ part ∈ d.parts, ReadsFields poco part) → d.RoundTrips poco := by
  intro h
  have hopen := h plainRead (onePart false) (readsFields_onePart false)
  have hcloses := (allReadable_of_roundTrips (readsFields_onePart false) hopen).closes
  cases hcloses

end Multipart

end CoolOnline.Http
