import CoolOnline.Net.HttpBody

/-! # Reading a response

`StatusLine::parse` and `Response::readData` of `net/HttpRequest.cpp`. Each read hands over what
has arrived and has not been consumed.
-/

namespace CoolOnline.Http

open Feeding

structure StatusLine where
  httpVersion : Payload
  versionMajor : Nat
  versionMinor : Nat
  statusCode : Nat
  reasonPhrase : Payload
deriving DecidableEq, Repr

/-- How `StatusLine::parse` ends; what has been read of an incomplete line is stored. -/
inductive StatusParse
  | incomplete (line : StatusLine)
  | invalid
  | valid (line : StatusLine)
deriving DecidableEq, Repr

def StatusCodeLen : Nat := 3

def MinStatusLineLen : Nat := 14

def MaxStatusLineLen : Nat := 8 + 3 + 512

/-- The digits of `Util::safe_atoi`, after some of them. -/
def atoiDigits : Nat → Payload → Nat
  | ret, [] => ret
  | ret, c :: rest =>
      if c.isDigit then
        if 2 ^ 31 - 1 ≤ ret * 10 + digitValue c then 2 ^ 31 - 1
        else atoiDigits (ret * 10 + digitValue c) rest
      else ret

namespace StatusLine

def empty : StatusLine := ⟨[], 1, 1, 0, []⟩

variable (line : StatusLine)

/-- The reason phrase at the start of the text. -/
def parseReason (p reason : Payload) : StatusParse :=
  if MaxStatusLineLen ≤ p.length - reason.length then .invalid
  else
    let off := findLineBreak reason
    if off = reason.length then .incomplete line
    -- The line break is where the loop behind this begins, and it ends there.
    else .valid { line with
      reasonPhrase := if 1 < off then reason.take (off - 1) else line.reasonPhrase }

/-- The status code at the start of the text; it begins with a digit. -/
def parseCode (p code : Payload) : StatusParse :=
  if MaxStatusLineLen ≤ p.length - code.length then .invalid
  else if code.length < MinStatusLineLen - VersionLen then .incomplete line
  else if !(code.headD ' ').isDigit then .invalid
  else
    let statusCode := atoiDigits 0 code
    if statusCode < 100 ∨ 599 < statusCode then .invalid
    else
      { line with statusCode := statusCode }.parseReason p
        (skipSpaceAndTab (code.drop StatusCodeLen))

/-- `parse`, less the number of elements read, which is not used. -/
def parse (p : Payload) : StatusParse :=
  if p.length < MinStatusLineLen then .incomplete line
  else
    let version := skipSpaceAndTab p
    if MaxStatusLineLen ≤ p.length - version.length then .invalid
    else if version.length < MinStatusLineLen then .incomplete line
    else if !isVersion version then .invalid
    else
      { line with
        httpVersion := version.take VersionLen
        versionMajor := digitValue (version.getD 5 '0')
        versionMinor := digitValue (version.getD 7 '0') }.parseCode p
          (skipSpaceAndTab (version.drop VersionLen))

end StatusLine

inductive ParserStage
  | statusLine
  | header
  | body
  | finished
deriving DecidableEq, Repr

/-- `Response::State`, as far as it is reached here. -/
inductive ResponseState
  | new
  | incomplete
  | complete
deriving DecidableEq, Repr

structure Response where
  statusLine : StatusLine
  state : ResponseState
  parserStage : ParserStage
  header : Header
  received : Received
deriving DecidableEq, Repr

/-- No body follows a response with this status. -/
def isBodiless (statusCode : Nat) : Bool :=
  (100 ≤ statusCode && statusCode < 200) || statusCode == 204 || statusCode == 304

namespace Response

def empty : Response := ⟨.empty, .new, .statusLine, .empty, .none⟩

variable (r : Response)

/-- Whether there is a body, once the header has been read. -/
def enterBody : Option Response :=
  if isBodiless r.statusLine.statusCode then some { r with parserStage := .finished }
  else if r.header.hasContentLength then
    if r.header.getContentLength < 0 ∨ r.header.getTransferEncoding ≠ [] then none
    else if r.header.getContentLength = 0 then some { r with parserStage := .finished }
    else some { r with parserStage := .body }
  else some { r with parserStage := .body }

/-- `complete` where the response is finished. -/
def complete : Response :=
  if r.parserStage = .finished then { r with state := .complete } else r

/-- The end of `readData`: the response, and what has not been consumed. -/
def readStageBody (p : Payload) : Option (Response × Payload) :=
  if r.parserStage = .body ∧ p ≠ [] then
    match readBody r.header r.received p with
    | .failed => none
    | .waiting received available => some ({ r with received := received }, available)
    | .finished received =>
        some ({ r with received := received, parserStage := .finished }.complete, [])
  else some (r.complete, p)

/-- From the header on; the status line in front of it has not been consumed. -/
def readStageHeader (poco : Payload → PocoRead) (p : Payload) : Option (Response × Payload) :=
  if r.parserStage = .header ∧ p ≠ [] then
    match r.header.parse poco p with
    | .invalid => none
    | .incomplete => r.readStageBody p
    | .parsed read header =>
        { r with header := header }.enterBody.bind fun r => r.readStageBody (p.drop read)
  else r.readStageBody p

def readData (poco : Payload → PocoRead) (p : Payload) : Option (Response × Payload) :=
  let r := { r with state := .incomplete }
  if r.parserStage = .statusLine then
    match r.statusLine.parse p with
    | .incomplete line => some ({ r with statusLine := line }, p)
    | .invalid => none
    | .valid line =>
        { r with statusLine := line, parserStage := .header }.readStageHeader poco p
  else r.readStageHeader poco p

end Response

/-- What a session reads with. -/
def Response.read (poco : Payload → PocoRead) : Feeding.Read Response Char := fun r p =>
  r.readData poco p

/-! ## Responses as they are sent -/

/-- A status line, with no more spaces in front of the reason than are skipped. -/
structure StatusText where
  major : Fin 10
  minor : Fin 10
  code : Nat
  reason : Payload
  valid : 100 ≤ code ∧ code ≤ 599
  oneLine : '\n' ∉ reason
  short : (reason.takeWhile isWhitespace).length < MaxStatusLineLen - 14

namespace StatusText

def version (s : StatusText) : Payload := versionText s.major s.minor

def digits (s : StatusText) : Payload :=
  [(s.code / 100).digitChar, (s.code / 10 % 10).digitChar, (s.code % 10).digitChar]

/-- The line, without the line break. -/
def line (s : StatusText) : Payload := s.version ++ (' ' :: (s.digits ++ (' ' :: s.reason)))

def statusLine (s : StatusText) : StatusLine :=
  ⟨s.version, s.major, s.minor, s.code, skipSpaceAndTab s.reason⟩

end StatusText

/-- A response: status line, the lines of the header and the fields in them, and the body. -/
structure ResponseText where
  status : StatusText
  lines : List Payload
  fields : List Field
  body : BodyText
  areLines : ∀ line ∈ lines, IsLine line
  wellFormed : body.WellFormed

namespace ResponseText

variable (t : ResponseText)

def head : Payload := linesText (t.status.line :: t.lines) ++ crlf

def text : Payload := t.head ++ t.body.text

def header : Header := Header.empty.setAll t.fields

/-- The header says how the body is sent, and not in two ways. -/
def Framed : Prop :=
  match t.body with
  | .none =>
      isBodiless t.status.code = true ∨ t.header.hasContentLength = true ∧
        t.header.getContentLength = 0 ∧ t.header.getTransferEncoding = []
  | .content body =>
      isBodiless t.status.code = false ∧ body ≠ [] ∧ t.header.hasContentLength = true ∧
        t.header.getContentLength = body.length ∧ t.header.getTransferEncoding = []
  | .chunked _ _ _ _ =>
      isBodiless t.status.code = false ∧ t.header.hasContentLength = false ∧
        t.header.getTransferEncoding = chunkedWord

/-- Poco reads the fields, and what is behind the header does not matter. -/
def ReadsFields (poco : Payload → PocoRead) : Prop :=
  ∀ rest, poco (t.head ++ rest) = .fields t.fields

/-- Delivered in these pieces the response is complete, and nothing else has been consumed. -/
def ReadsExactly (poco : Payload → PocoRead) (pieces : List Payload) : Prop :=
  ∃ buffer received, feedAll (Response.read poco) .empty pieces =
      some ⟨⟨t.status.statusLine, .complete, .finished, t.header, received⟩, buffer,
        t.text.length⟩ ∧
    received.body = t.body.decoded

/-- Up to here the response is read. -/
def stop : Nat := t.head.length + t.body.stop

end ResponseText

/-! ## The status line -/

section

variable {s : StatusText} {line : StatusLine} {p q rest : Payload}

theorem skipSpaceAndTab_digits (s : StatusText) (p : Payload) :
    skipSpaceAndTab (s.digits ++ p) = s.digits ++ p := by
  have hcode : s.code / 100 < 10 := by
    have hvalid := s.valid
    omega
  exact skipSpaceAndTab_of_not (isWhitespace_of_isDigit (isDigit_digitChar hcode)) _

theorem StatusText.isLine (s : StatusText) : IsLine s.line := by
  have hne : ∀ n : Nat, n < 10 → '\n' ≠ n.digitChar := by
    intro n hn heq
    have hdigit := isDigit_digitChar hn
    rw [← heq] at hdigit
    exact absurd hdigit (by decide)
  have hvalid := s.valid
  have hmajor := hne _ s.major.isLt
  have hminor := hne _ s.minor.isLt
  have hhundreds := hne (s.code / 100) (by omega)
  have htens := hne (s.code / 10 % 10) (by omega)
  have hones := hne (s.code % 10) (by omega)
  constructor
  · simp [StatusText.line]
  · simp only [StatusText.line, StatusText.version, versionText, StatusText.digits,
      List.cons_append, List.nil_append, List.mem_cons, hmajor, hminor, hhundreds, htens, hones, s.oneLine]
    decide

theorem atoiDigits_digits (s : StatusText) (p : Payload) :
    atoiDigits 0 (s.digits ++ (' ' :: p)) = s.code := by
  have hvalid := s.valid
  have hhundreds : s.code / 100 < 10 := by omega
  have htens : s.code / 10 % 10 < 10 := by omega
  have hones : s.code % 10 < 10 := by omega
  have hspace : (' ' : Char).isDigit = false := by decide
  simp only [StatusText.digits, List.cons_append, List.nil_append, atoiDigits,
    isDigit_digitChar hhundreds, isDigit_digitChar htens, isDigit_digitChar hones,
    digitValue_digitChar hhundreds, digitValue_digitChar htens, digitValue_digitChar hones, hspace,
    if_true, Bool.false_eq_true, if_false]
  rw [if_neg (by omega), if_neg (by omega), if_neg (by omega)]
  omega

theorem takeWhile_isWhitespace_le {reason : Payload} (hq : q <+: reason ++ (crlf ++ rest)) :
    (q.takeWhile isWhitespace).length ≤ (reason.takeWhile isWhitespace).length + 1 := by
  induction reason generalizing q with
  | nil =>
      rcases q with _ | ⟨c, _ | ⟨d, q⟩⟩
      · exact Nat.zero_le 1
      · exact (List.takeWhile_prefix _).length_le
      · obtain ⟨rfl, hbehind⟩ := List.cons_prefix_cons.mp hq
        obtain ⟨rfl, -⟩ := List.cons_prefix_cons.mp hbehind
        exact Nat.le_refl 1
  | cons c reason ih =>
      cases q with
      | nil => exact Nat.zero_le _
      | cons d q =>
          obtain ⟨rfl, hbehind⟩ := List.cons_prefix_cons.mp hq
          cases hd : isWhitespace d with
          | true => simpa [List.takeWhile_cons, hd] using ih hbehind
          | false => simp [hd]

theorem length_skipSpaceAndTab (q : Payload) :
    q.length = (q.takeWhile isWhitespace).length + (skipSpaceAndTab q).length := by
  rw [skipSpaceAndTab, ← List.length_append, List.takeWhile_append_dropWhile]

/-- The spaces in front of the reason, as far as they have come, are few enough. -/
theorem length_sub_skip_lt (s : StatusText) (hq : q <+: s.reason ++ (crlf ++ rest)) :
    q.length - (skipSpaceAndTab q).length < MaxStatusLineLen - 13 := by
  have hle := takeWhile_isWhitespace_le hq
  have hshort := s.short
  rw [length_skipSpaceAndTab q, Nat.add_sub_cancel]
  simp only [MaxStatusLineLen] at hshort ⊢
  omega

/-- The line break, once it has come, ends the reason. -/
theorem StatusLine.parseReason_skip (hline : line.reasonPhrase = []) (hnot : '\n' ∉ s.reason)
    (hq : q <+: s.reason ++ (crlf ++ rest))
    (hlong : p.length - (skipSpaceAndTab q).length < MaxStatusLineLen) :
    s.reason.length + 2 ≤ q.length ∧ line.parseReason p (skipSpaceAndTab q) =
        .valid { line with reasonPhrase := skipSpaceAndTab s.reason } ∨
      q.length < s.reason.length + 2 ∧
        line.parseReason p (skipSpaceAndTab q) = .incomplete line := by
  have hcr : '\n' ∉ s.reason ++ ['\r'] := by
    intro hmem
    rcases List.mem_append.mp hmem with hmem | hmem
    · exact hnot hmem
    · exact absurd hmem (by decide)
  have hsplit : s.reason ++ (crlf ++ rest) = (s.reason ++ ['\r']) ++ ('\n' :: rest) := by
    simp [crlf]
  rw [hsplit] at hq
  rw [StatusLine.parseReason, if_neg (Nat.not_le.mpr hlong)]
  rcases Nat.lt_or_ge q.length (s.reason.length + 2) with hlt | hge
  · right
    have hshort : q <+: s.reason ++ ['\r'] :=
      List.prefix_of_prefix_length_le hq (List.prefix_append _ _) (by simpa using Nat.le_of_lt_succ hlt)
    have hbreak := findLineBreak_of_not_mem fun hmem =>
      hcr (hshort.mem ((List.dropWhile_suffix isWhitespace).mem hmem))
    rw [skipSpaceAndTab]
    simp only [hbreak, if_true]
    exact ⟨hlt, trivial⟩
  · left
    refine ⟨hge, ?_⟩
    obtain ⟨behind, rfl⟩ : (s.reason ++ ['\r']) ++ ['\n'] <+: q := by
      refine List.prefix_of_prefix_length_le ?_ hq (by simpa using hge)
      rw [List.append_cons _ _ rest]
      exact List.prefix_append _ _
    have hskip : skipSpaceAndTab (s.reason ++ ['\r'] ++ ['\n'] ++ behind) =
        if skipSpaceAndTab s.reason = [] then '\n' :: behind
        else skipSpaceAndTab s.reason ++ ('\r' :: '\n' :: behind) := by
      simp only [skipSpaceAndTab, List.append_assoc, List.dropWhile_append, List.isEmpty_iff]
      rfl
    have hmem : '\n' ∉ skipSpaceAndTab s.reason := fun hmem =>
      hnot ((List.dropWhile_suffix isWhitespace).mem hmem)
    rw [hskip]
    by_cases hempty : skipSpaceAndTab s.reason = []
    · have hoff : findLineBreak ('\n' :: behind) = 0 := findLineBreak_append List.not_mem_nil behind
      have hpos : 0 ≠ ('\n' :: behind).length := (Nat.succ_ne_zero _).symm
      rw [if_pos hempty, hempty]
      simp only [hoff, hpos, if_false, Nat.not_lt_zero, hline]
    · have hoff : findLineBreak (skipSpaceAndTab s.reason ++ ('\r' :: '\n' :: behind)) =
          (skipSpaceAndTab s.reason).length + 1 := by
        have hcr : '\n' ∉ skipSpaceAndTab s.reason ++ ['\r'] := by simpa using hmem
        simpa using findLineBreak_append hcr behind
      have hlength : (skipSpaceAndTab s.reason).length + 1 ≠
          (skipSpaceAndTab s.reason ++ ('\r' :: '\n' :: behind)).length := by
        simp
      have hsome : 1 < (skipSpaceAndTab s.reason).length + 1 :=
        Nat.succ_lt_succ (List.length_pos_iff.mpr hempty)
      rw [if_neg hempty]
      simp only [hoff, hlength, if_false, hsome, if_true, Nat.add_sub_cancel, List.take_left]

/-- The version is read, and the space behind it is skipped. -/
theorem StatusLine.parse_version (s : StatusText) (line : StatusLine) (hq : q ≠ []) :
    line.parse (s.version ++ (' ' :: (s.digits ++ (' ' :: q)))) =
      { line with httpVersion := s.version, versionMajor := s.major, versionMinor := s.minor }.parseCode
        (s.version ++ (' ' :: (s.digits ++ (' ' :: q)))) (s.digits ++ (' ' :: q)) := by
  have hpos := List.length_pos_iff.mpr hq
  have hlength : (s.version ++ (' ' :: (s.digits ++ (' ' :: q)))).length = 13 + q.length := by
    simp only [List.length_append, List.length_cons, StatusText.version, versionText,
      StatusText.digits, List.length_nil]
    omega
  have htake : (s.version ++ (' ' :: (s.digits ++ (' ' :: q)))).take VersionLen = s.version := rfl
  have hdrop : (s.version ++ (' ' :: (s.digits ++ (' ' :: q)))).drop VersionLen =
      ' ' :: (s.digits ++ (' ' :: q)) := rfl
  have hmajor : (s.version ++ (' ' :: (s.digits ++ (' ' :: q)))).getD 5 '0' =
      s.major.val.digitChar := rfl
  have hminor : (s.version ++ (' ' :: (s.digits ++ (' ' :: q)))).getD 7 '0' =
      s.minor.val.digitChar := rfl
  have hskip : skipSpaceAndTab (s.version ++ (' ' :: (s.digits ++ (' ' :: q)))) =
      s.version ++ (' ' :: (s.digits ++ (' ' :: q))) :=
    skipSpaceAndTab_versionText s.major s.minor _
  have hversion : isVersion (s.version ++ (' ' :: (s.digits ++ (' ' :: q)))) = true :=
    isVersion_versionText s.major s.minor rfl _
  rw [StatusLine.parse, hlength, if_neg (by simp only [MinStatusLineLen]; omega)]
  simp only [hskip, htake, hdrop, hmajor, hminor, hlength, hversion,
    digitValue_digitChar s.major.isLt, digitValue_digitChar s.minor.isLt, skipSpaceAndTab_space,
    skipSpaceAndTab_digits, Nat.sub_self]
  rw [if_neg (by decide), if_neg (by simp only [MinStatusLineLen]; omega), if_neg (by decide)]

theorem StatusLine.parseCode_digits (s : StatusText) (line : StatusLine) (q : Payload)
    (hlong : p.length - (s.digits ++ (' ' :: q)).length < MaxStatusLineLen) :
    line.parseCode p (s.digits ++ (' ' :: q)) =
      if q.length < 2 then .incomplete line
      else { line with statusCode := s.code }.parseReason p (skipSpaceAndTab q) := by
  have hvalid := s.valid
  have hfirst : ((s.digits ++ (' ' :: q)).headD ' ').isDigit = true :=
    isDigit_digitChar (by omega)
  have hlength : (s.digits ++ (' ' :: q)).length = 4 + q.length := by
    simp only [List.length_append, List.length_cons, StatusText.digits, List.length_nil]
    omega
  have hdrop : (s.digits ++ (' ' :: q)).drop StatusCodeLen = ' ' :: q := rfl
  have hcode : ¬ (s.code < 100 ∨ 599 < s.code) := by omega
  have hfew : 4 + q.length < MinStatusLineLen - VersionLen ↔ q.length < 2 := by
    simp only [MinStatusLineLen, VersionLen]
    omega
  rw [StatusLine.parseCode, if_neg (Nat.not_le.mpr hlong)]
  simp only [hlength, hfew, hfirst, atoiDigits_digits, hcode, hdrop, skipSpaceAndTab_space,
    Bool.not_true, Bool.false_eq_true, if_false]

/-- The status line is read when all of it has come. -/
theorem StatusLine.parse_prefix (hline : line.reasonPhrase = [])
    (hp : p <+: s.line ++ (crlf ++ rest)) :
    s.line.length + 2 ≤ p.length ∧ line.parse p = .valid s.statusLine ∨
      p.length < s.line.length + 2 ∧
        ∃ line', line'.reasonPhrase = [] ∧ line.parse p = .incomplete line' := by
  have hlength : s.line.length = 13 + s.reason.length := by
    simp only [StatusText.line, List.length_append, List.length_cons, StatusText.version,
      versionText, StatusText.digits, List.length_nil]
    omega
  rcases Nat.lt_or_ge p.length MinStatusLineLen with hlt | hge
  · right
    refine ⟨?_, line, hline, by rw [StatusLine.parse, if_pos hlt]⟩
    rw [MinStatusLineLen] at hlt
    omega
  · rw [MinStatusLineLen] at hge
    have hsplit : s.line ++ (crlf ++ rest) =
        (s.version ++ (' ' :: (s.digits ++ [' ']))) ++ (s.reason ++ (crlf ++ rest)) := by
      simp [StatusText.line]
    have hstart : (s.version ++ (' ' :: (s.digits ++ [' ']))).length = 13 := rfl
    rw [hsplit] at hp
    obtain ⟨q, rfl⟩ := List.prefix_of_prefix_length_le (List.prefix_append _ _) hp
      (hstart ▸ Nat.le_of_succ_le hge)
    rw [List.prefix_append_right_inj] at hp
    rw [List.length_append, hstart] at hge ⊢
    have hne : q ≠ [] := List.ne_nil_of_length_pos (by omega)
    have hq : s.version ++ (' ' :: (s.digits ++ [' '])) ++ q =
        s.version ++ (' ' :: (s.digits ++ (' ' :: q))) := by simp
    have hpq : (s.version ++ (' ' :: (s.digits ++ (' ' :: q)))).length = 13 + q.length := by
      rw [← hq, List.length_append, hstart]
    have hcode : (s.digits ++ (' ' :: q)).length = 4 + q.length := by
      simp only [List.length_append, List.length_cons, StatusText.digits, List.length_nil]
      omega
    have hfew := length_sub_skip_lt s hp
    rw [hq, StatusLine.parse_version s line hne, StatusLine.parseCode_digits s _ q
      (by rw [hpq, hcode, MaxStatusLineLen]; omega)]
    rcases Nat.lt_or_ge q.length 2 with hlt | hge
    · right
      rw [if_pos hlt]
      refine ⟨by omega, _, ?_, rfl⟩
      exact hline
    · rw [if_neg (Nat.not_lt.mpr hge)]
      have hlong : (s.version ++ (' ' :: (s.digits ++ (' ' :: q)))).length -
          (skipSpaceAndTab q).length < MaxStatusLineLen := by
        rw [hpq]
        rw [MaxStatusLineLen] at hfew ⊢
        omega
      have hread : (⟨s.version, s.major, s.minor, s.code, line.reasonPhrase⟩ :
          StatusLine).reasonPhrase = [] := hline
      rcases StatusLine.parseReason_skip hread s.oneLine hp hlong with ⟨hge, hread⟩ | ⟨hlt, hread⟩
      · left
        exact ⟨by omega, hread⟩
      · right
        refine ⟨by omega, _, ?_, hread⟩
        exact hline

end

/-! ## A response in pieces -/

section

variable {t : ResponseText} {poco : Payload → PocoRead} {delivered buffer piece rest p : Payload}
  {r : Response}

/-- The response, read to this stage. -/
def ResponseText.upTo (t : ResponseText) (stage : ParserStage) (received : Received) : Response :=
  ⟨t.status.statusLine, if stage = .finished then .complete else .incomplete, stage, t.header,
    received⟩

/-- Where the parser is when so much of a response has come, which is not enough. -/
inductive ResponseAt (t : ResponseText) : Payload → Response → Payload → Prop
  | statusLine {delivered : Payload} {line : StatusLine} {state : ResponseState}
      (hline : line.reasonPhrase = []) (h : delivered.length < t.status.line.length + 2) :
      ResponseAt t delivered ⟨line, state, .statusLine, .empty, .none⟩ delivered
  | header {delivered : Payload} (h : delivered.length < t.head.length) :
      ResponseAt t delivered ⟨t.status.statusLine, .incomplete, .header, .empty, .none⟩ delivered
  | body {delivered buffer : Payload} {received : Received}
      (h : BodyAt t.body delivered received buffer) :
      ResponseAt t (t.head ++ delivered) (t.upTo .body received) buffer

/-- What has not been consumed when the response is complete. -/
def ResponseText.left (t : ResponseText) (delivered : Payload) : Payload :=
  match t.body with
  | .none => delivered.drop t.head.length
  | _ => []

/-- The response, as the read makes it that completes it, and what that has not consumed. -/
def ResponseText.complete (t : ResponseText) (delivered : Payload) : Response × Payload :=
  (t.upTo .finished (t.body.received (delivered.drop t.head.length)), t.left delivered)

theorem ResponseText.Framed.body (h : t.Framed) : t.body.Framed t.header := by
  have hchunked := setAll_chunked .empty t.fields
  rw [ResponseText.Framed] at h
  cases hbody : t.body with
  | none => trivial
  | content body =>
      simp only [hbody] at h
      refine ⟨?_, h.2.2.1, h.2.2.2.1⟩
      rw [ResponseText.header, hchunked, ← ResponseText.header, h.2.2.2.2]
      rfl
  | chunked payloads chunks last trailer =>
      simp only [hbody] at h
      show t.header.chunked = true
      rw [ResponseText.header, hchunked, ← ResponseText.header, h.2.2]
      rfl

/-- There is a body, or the header is the end. -/
theorem enterBody_of_framed (h : t.Framed) (received : Received) :
    (⟨t.status.statusLine, .incomplete, .header, t.header, received⟩ : Response).enterBody =
      some ⟨t.status.statusLine, .incomplete,
        if t.body.stop = 0 then .finished else .body, t.header, received⟩ := by
  have hwell := t.wellFormed
  have hcode : t.status.statusLine.statusCode = t.status.code := rfl
  rw [ResponseText.Framed] at h
  cases hbody : t.body with
  | none =>
      simp only [hbody] at h
      rcases h with hbodiless | ⟨hhas, hlength, hencoding⟩
      · simp [Response.enterBody, hcode, hbodiless, BodyText.stop]
      · cases hbodiless : isBodiless t.status.code with
        | true => simp [Response.enterBody, hcode, hbodiless, BodyText.stop]
        | false =>
            simp [Response.enterBody, hcode, hbodiless, hhas, hlength, hencoding, BodyText.stop]
  | content body =>
      simp only [hbody] at h
      obtain ⟨hbodiless, hne, hhas, hlength, hencoding⟩ := h
      simp [Response.enterBody, hcode, hbodiless, hhas, hlength, hencoding, BodyText.stop, hne]
  | chunked payloads chunks last trailer =>
      simp only [hbody] at h
      obtain ⟨hbodiless, hhas, -⟩ := h
      have hlast : ChunkLine last 0 := by
        rw [hbody] at hwell
        exact hwell.2.1
      simp [Response.enterBody, hcode, hbodiless, hhas, BodyText.stop, hlast.ne_nil]

/-- What a read of a response makes of its state, when so much of it has come. -/
def ResponseText.Reads (t : ResponseText) (delivered : Payload)
    (result : Option (Response × Payload)) : Prop :=
  Feeding.Reads t.stop t.complete (ResponseAt t) delivered result

theorem readStageBody_reads (hframed : t.Framed) {received : Received}
    (hat : BodyAt t.body delivered received buffer)
    (hpiece : delivered ++ piece <+: t.body.text ++ rest) :
    t.Reads (t.head ++ (delivered ++ piece))
      ((t.upTo .body received).readStageBody (buffer ++ piece)) := by
  have hstage : (t.upTo .body received).readStageBody (buffer ++ piece) =
      match readBody t.header received (buffer ++ piece) with
      | .failed => none
      | .waiting received available => some (t.upTo .body received, available)
      | .finished received => some (t.upTo .finished received, []) := by
    rw [Response.readStageBody]
    by_cases hempty : buffer ++ piece = []
    · rw [if_neg (by simp [hempty]), hempty, readBody_nil]
      rfl
    · rw [if_pos ⟨rfl, hempty⟩]
      rfl
  have hsome : t.body ≠ .none := by
    intro hnone
    rw [hnone] at hat
    cases hat
  have hleft : t.left (t.head ++ (delivered ++ piece)) = [] := by
    rw [ResponseText.left]
    split
    · exact absurd ‹_› hsome
    · rfl
  rw [hstage]
  refine hat.reads t.wellFormed hframed.body hpiece ?_ fun _ _ hat' => .body hat'
  rw [ResponseText.complete, hleft, List.drop_left]

/-- All of the header has come: it is read, and what is behind it is read as the body. -/
theorem readStageHeader_head (hframed : t.Framed) (hpoco : t.ReadsFields poco)
    (hp : t.head ++ piece <+: t.text ++ rest) :
    t.Reads (t.head ++ piece)
      ((⟨t.status.statusLine, .incomplete, .header, .empty, .none⟩ : Response).readStageHeader
        poco (t.head ++ piece)) := by
  have hlines : ∀ line ∈ t.status.line :: t.lines, IsLine line :=
    List.forall_mem_cons.mpr ⟨t.status.isLine, t.areLines⟩
  have hne : t.head ++ piece ≠ [] := by simp [ResponseText.head, crlf]
  have hread : Header.empty.parse poco (t.head ++ piece) = .parsed t.head.length t.header := by
    rcases Header.parse_prefix hlines (List.cons_ne_nil _ _) hpoco
      (List.prefix_refl (t.head ++ piece)) .empty with ⟨-, hread⟩ | ⟨hlt, -⟩
    · exact hread
    · rw [← ResponseText.head, List.length_append] at hlt
      omega
  rw [ResponseText.text, List.append_assoc, List.prefix_append_right_inj] at hp
  rw [Response.readStageHeader, if_pos ⟨rfl, hne⟩]
  simp only [hread, List.drop_left, enterBody_of_framed hframed, Option.bind_some]
  by_cases hstop : t.body.stop = 0
  · left
    have hnone := t.wellFormed.stop_eq_zero.mp hstop
    have hleft : t.left (t.head ++ piece) = piece := by
      rw [ResponseText.left, hnone]
      exact List.drop_left
    refine ⟨by rw [ResponseText.stop, List.length_append]; omega, ?_⟩
    rw [if_pos hstop, ResponseText.complete, hleft, hnone]
    rfl
  · have hstart := bodyAt_start t.wellFormed (mt t.wellFormed.stop_eq_zero.mpr hstop)
    have hbody := readStageBody_reads hframed hstart hp
    rw [if_neg hstop]
    exact hbody

theorem readStageHeader_reads (hframed : t.Framed) (hpoco : t.ReadsFields poco)
    (hp : p <+: t.text ++ rest) :
    t.Reads p
      ((⟨t.status.statusLine, .incomplete, .header, .empty, .none⟩ : Response).readStageHeader
        poco p) := by
  have hlines : ∀ line ∈ t.status.line :: t.lines, IsLine line :=
    List.forall_mem_cons.mpr ⟨t.status.isLine, t.areLines⟩
  have hsplit : t.text ++ rest = t.head ++ (t.body.text ++ rest) := by
    rw [ResponseText.text, List.append_assoc]
  have hhead := hp
  rw [hsplit] at hhead
  rcases Header.parse_prefix hlines (List.cons_ne_nil _ _) hpoco hhead .empty with
    ⟨hge, -⟩ | ⟨hlt, hread⟩
  · obtain ⟨piece, rfl⟩ := List.prefix_of_prefix_length_le (List.prefix_append _ _) hhead hge
    exact readStageHeader_head hframed hpoco hp
  · right
    refine ⟨by rw [ResponseText.stop]; exact Nat.lt_add_right _ hlt, _, p, ?_, .header hlt⟩
    rw [Response.readStageHeader]
    split
    · rw [hread]
      rfl
    · rfl

/-- One read: the response is complete if its end has come, and not before. -/
theorem readData_reads (hframed : t.Framed) (hpoco : t.ReadsFields poco)
    (hat : ResponseAt t delivered r buffer) (hpiece : delivered ++ piece <+: t.text ++ rest) :
    t.Reads (delivered ++ piece) (r.readData poco (buffer ++ piece)) := by
  cases hat with
  | @statusLine _ line state hline hlt =>
      have hsplit : t.text ++ rest =
          t.status.line ++ (crlf ++ (linesText t.lines ++ crlf ++ t.body.text ++ rest)) := by
        simp [ResponseText.text, ResponseText.head, linesText]
      have hstart := hpiece
      rw [hsplit] at hstart
      rw [Response.readData, if_pos rfl]
      rcases StatusLine.parse_prefix hline hstart with ⟨hge, hread⟩ | ⟨hlt, line', hline', hread⟩
      · simp only [hread]
        exact readStageHeader_reads hframed hpoco hpiece
      · right
        simp only [hread]
        refine ⟨?_, _, _, rfl, .statusLine hline' hlt⟩
        have hhead : t.status.line.length + 2 ≤ t.head.length := by
          simp only [ResponseText.head, linesText, crlf, List.flatMap_cons, List.length_append,
            List.length_cons, List.length_nil]
          omega
        rw [ResponseText.stop]
        omega
  | header hlt =>
      rw [Response.readData, if_neg]
      · exact readStageHeader_reads hframed hpoco hpiece
      · intro hstage
        cases hstage
  | @body delivered _ received hbody =>
      rw [List.append_assoc] at hpiece ⊢
      rw [ResponseText.text, List.append_assoc, List.prefix_append_right_inj] at hpiece
      rw [Response.readData, if_neg, Response.readStageHeader, if_neg]
      · exact readStageBody_reads hframed hbody hpiece
      · rintro ⟨hstage, -⟩
        cases hstage
      · intro hstage
        cases hstage

/-! ### What has been consumed -/

theorem readStageBody_length_le {r' : Response} {q : Payload}
    (h : r.readStageBody p = some (r', q)) : q.length ≤ p.length := by
  rw [Response.readStageBody] at h
  split_ifs at h
  · split at h
    · cases h
    · rename_i hread
      cases h
      exact readBody_length_le hread
    · cases h
      exact Nat.zero_le _
  · cases h
    exact Nat.le_refl _

theorem readStageHeader_length_le {r' : Response} {q : Payload}
    (h : r.readStageHeader poco p = some (r', q)) : q.length ≤ p.length := by
  rw [Response.readStageHeader] at h
  split_ifs at h
  · split at h
    · cases h
    · exact readStageBody_length_le h
    · obtain ⟨r, -, hbody⟩ := Option.bind_eq_some_iff.mp h
      refine (readStageBody_length_le hbody).trans ?_
      rw [List.length_drop]
      exact Nat.sub_le _ _
  · exact readStageBody_length_le h

/-- Nothing is put back. -/
theorem readData_length_le {r' : Response} {q : Payload} (h : r.readData poco p = some (r', q)) :
    q.length ≤ p.length := by
  rw [Response.readData] at h
  simp only at h
  split_ifs at h
  · split at h
    · cases h
      exact Nat.le_refl _
    · cases h
    · exact readStageHeader_length_le h
  · exact readStageHeader_length_le h

/-- What comes behind a complete response is not consumed. -/
theorem readData_finished (received : Received) :
    (t.upTo .finished received).readData poco p = some (t.upTo .finished received, p) := by
  rw [Response.readData, if_neg nofun, Response.readStageHeader, if_neg nofun,
    Response.readStageBody, if_neg nofun]
  rfl

theorem readsText_response (hframed : t.Framed) (hpoco : t.ReadsFields poco) (rest : Payload) :
    ReadsText (Response.read poco) (t.text ++ rest) t.stop t.complete (ResponseAt t) where
  step := readData_reads hframed hpoco
  idle _ _ := readData_finished _
  length_le := readData_length_le

theorem ResponseText.Framed.stop_le_length (h : t.Framed) : t.stop ≤ t.text.length := by
  rw [ResponseText.Framed] at h
  rw [ResponseText.stop, ResponseText.text, List.length_append]
  apply Nat.add_le_add_left
  cases hbody : t.body with
  | none => exact Nat.zero_le _
  | content body =>
      simp only [hbody] at h
      exact Nat.max_le.mpr ⟨List.length_pos_iff.mpr h.2.1, Nat.le_refl _⟩
  | chunked payloads chunks last trailer => simp [BodyText.stop, BodyText.text]

theorem responseAt_start (t : ResponseText) : ResponseAt t [] .empty [] :=
  .statusLine rfl (Nat.succ_pos _)

/-- The response is read as it was sent, and nothing else is consumed, if it has no body or the
first read that reaches the end of the content, or the end of the line of the last chunk, ends
where the response ends. -/
theorem readsExactly_iff {pieces : List Payload} (hframed : t.Framed)
    (hpoco : t.ReadsFields poco) (hpieces : pieces.flatten = t.text ++ rest) :
    t.ReadsExactly poco pieces ↔
      t.body = .none ∨ firstCut t.stop 0 pieces = some t.text.length := by
  have hlength : t.stop ≤ 0 + pieces.flatten.length := by
    have hle := hframed.stop_le_length
    rw [hpieces, List.length_append]
    omega
  have hpos : 0 < t.stop := by
    rw [ResponseText.stop, ResponseText.head, List.length_append]
    exact Nat.add_pos_left (Nat.add_pos_right _ Nat.two_pos) _
  have hsome := firstCut_isSome hpos hlength
  have hstart : pieces.flatten <+: t.text ++ rest := hpieces ▸ List.prefix_refl _
  rcases (readsText_response hframed hpoco rest).feedAll (responseAt_start t) hstart with
    ⟨hnone, -⟩ | ⟨cut, left, hcut, hrun⟩
  · rw [hnone] at hsome
    cases hsome
  have hle := (le_of_firstCut hcut).2
  have hge := (le_of_firstCut hcut).1
  rw [ResponseText.ReadsExactly, hrun, hcut, Option.some.injEq]
  by_cases hnone : t.body = .none
  · have hhead : t.text = t.head := by
      rw [ResponseText.text, hnone]
      exact List.append_nil _
    have hstop : t.stop = t.head.length := by
      rw [ResponseText.stop, hnone]
      rfl
    have hconsumed : cut - (t.complete ((t.text ++ rest).take cut)).2.length =
        t.text.length := by
      rw [hpieces, Nat.zero_add] at hle
      rw [ResponseText.complete, ResponseText.left, hnone]
      rw [List.length_drop, List.length_take, Nat.min_eq_left hle, hhead]
      omega
    simp only [hnone, true_or, iff_true]
    refine ⟨left, .none, ?_, rfl⟩
    rw [hconsumed, ResponseText.complete, hnone]
    rfl
  · have hleft : ∀ d, (t.complete d).2 = [] := by
      intro d
      show t.left d = []
      rw [ResponseText.left]
      split
      · exact absurd ‹_› hnone
      · rfl
    simp only [hnone, false_or, hleft, List.length_nil, Nat.sub_zero]
    constructor
    · rintro ⟨buffer, received, hreader, -⟩
      simp only [Option.some.injEq, Reader.mk.injEq] at hreader
      exact hreader.2.2
    · rintro rfl
      refine ⟨left, _, rfl, ?_⟩
      rw [List.take_left]
      have hbody : t.text.drop t.head.length = t.body.text := List.drop_left
      rw [hbody]
      exact BodyText.received_text

end

/-- Two elements of content. -/
def shortResponse : ResponseText where
  status := ⟨1, 1, 200, ['O', 'K'], by decide, by decide, by decide⟩
  lines := fieldLines [(Header.CONTENT_LENGTH, ['2'])]
  fields := [(Header.CONTENT_LENGTH, ['2'])]
  body := .content ['h', 'i']
  areLines := by
    intro line hline
    rw [List.mem_singleton.mp hline]
    exact ⟨by decide, by decide⟩
  wellFormed := trivial

theorem shortResponse_framed : shortResponse.Framed :=
  ⟨by decide, by decide, by decide, by decide, by decide⟩

theorem shortResponse_readsFields : shortResponse.ReadsFields plainRead := fun _ => rfl

theorem readsExactly_iff_shortResponse :
    shortResponse.ReadsExactly plainRead [shortResponse.text] ↔ shortResponse.body = .none ∨
      firstCut shortResponse.stop 0 [shortResponse.text] = some shortResponse.text.length :=
  readsExactly_iff shortResponse_framed shortResponse_readsFields
    (by simp : [shortResponse.text].flatten = shortResponse.text ++ [])

/-- The start of the next message is swallowed with the content. -/
theorem not_readsExactly_behind : ¬ ∀ (t : ResponseText) (poco : Payload → PocoRead)
    (pieces : List Payload) (rest : Payload), t.Framed → t.ReadsFields poco →
    pieces.flatten = t.text ++ rest → t.ReadsExactly poco pieces := by
  intro h
  have hexact := h shortResponse plainRead [shortResponse.text ++ ['H']] ['H']
    shortResponse_framed shortResponse_readsFields (by simp)
  obtain ⟨buffer, received, hreader, -⟩ := hexact
  have hconsumed : (feedAll (Response.read plainRead) .empty [shortResponse.text ++ ['H']]).map
      Reader.consumed = some shortResponse.text.length :=
    congrArg (Option.map Reader.consumed) hreader
  exact absurd hconsumed (by decide +kernel)

end CoolOnline.Http
