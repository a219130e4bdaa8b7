import CoolOnline.Net.HttpBody

/-! # Reading a request

`RequestParser::readData` of `net/HttpRequest.cpp`. What is not consumed comes again with the next
read; the body is stored in memory.
-/

namespace CoolOnline.Http

open Feeding

inductive RequestStage
  | requestLine
  | header
  | body
  | finished
deriving DecidableEq, Repr

structure RequestParser where
  stage : RequestStage
  verb : Payload
  url : Payload
  version : Payload
  header : Header
  received : Received
deriving DecidableEq, Repr

def VERB_GET : Payload := ['G', 'E', 'T']

def VERB_POST : Payload := ['P', 'O', 'S', 'T']

def MinRequestHeaderLen : Nat := 16

/-- How the reading of a request line ends; what has been read of an incomplete one is stored. -/
inductive LineRead
  | incomplete (parser : RequestParser)
  | failed
  | parsed (parser : RequestParser) (available : Payload)
deriving DecidableEq, Repr

namespace RequestParser

def empty : RequestParser := ⟨.requestLine, [], [], [], .empty, .none⟩

variable (r : RequestParser)

/-- From the version on. -/
def readVersion (version : Payload) : LineRead :=
  if version.length ≤ VersionLen then .incomplete r
  else if !isVersion version then .failed
  else
    let r := { r with version := version.take VersionLen }
    let behind := version.drop VersionLen
    let off := findLineBreak behind
    if off = behind.length then .incomplete r
    else .parsed { r with stage := .header } (behind.drop (off + 1))

/-- From the URL on. -/
def readUrl (url : Payload) : LineRead :=
  let off := findEndOfToken url
  if off = url.length then .incomplete r
  else { r with url := url.take off }.readVersion (skipSpaceAndTab (url.drop off))

/-- `Util::isMobileApp()` is false. -/
def readRequestLine (p : Payload) : LineRead :=
  if p.length < MinRequestHeaderLen then .incomplete r
  else
    let verb := skipSpaceAndTab p
    let off := findEndOfToken verb
    if off = verb.length then .incomplete r
    else { r with verb := verb.take off }.readUrl (skipSpaceAndTab (verb.drop off))

/-- The body: the request, and what has not been consumed. -/
def readStageBody (p : Payload) : Option (RequestParser × Payload) :=
  if r.verb = VERB_GET then some ({ r with stage := .finished }, p)
  else if r.verb = VERB_POST then
    if !r.header.hasContentLength && !r.header.chunked then none
    else
      match readBody r.header r.received p with
      | .failed => none
      | .waiting received available => some ({ r with received := received }, available)
      | .finished received => some ({ r with received := received, stage := .finished }, [])
  else none

def readStageHeader (poco : Payload → PocoRead) (p : Payload) : Option (RequestParser × Payload) :=
  match r.header.parse poco p with
  | .invalid => none
  | .incomplete => some (r, p)
  | .parsed read header => { r with header := header, stage := .body }.readStageBody (p.drop read)

def readData (poco : Payload → PocoRead) (p : Payload) : Option (RequestParser × Payload) :=
  match r.stage with
  | .requestLine =>
      match r.readRequestLine p with
      | .incomplete r => some (r, p)
      | .failed => none
      | .parsed r available => r.readStageHeader poco available
  | .header => r.readStageHeader poco p
  | .body => r.readStageBody p
  | .finished => some (r, p)

/-- What a socket handler reads with. -/
def read (poco : Payload → PocoRead) : Feeding.Read RequestParser Char := fun r p =>
  r.readData poco p

end RequestParser

/-! ## Requests as they are sent -/

/-- A verb or a URL. -/
def IsToken (token : Payload) : Prop :=
  token ≠ [] ∧ ∀ c ∈ token, isWhitespace c = false ∧ c ≠ '\n'

instance (token : Payload) : Decidable (IsToken token) :=
  decidable_of_iff ((!token.isEmpty && token.all fun c => !isWhitespace c && c != '\n') = true) <| by
    simp [IsToken]

/-- A request: the request line, the lines of the header and the fields in them, and the body. -/
structure RequestText where
  verb : Payload
  url : Payload
  major : Fin 10
  minor : Fin 10
  lines : List Payload
  fields : List Field
  body : BodyText
  isUrl : IsToken url
  areLines : ∀ line ∈ lines, IsLine line
  noFields : lines = [] → fields = []
  wellFormed : body.WellFormed

namespace RequestText

variable (t : RequestText)

def version : Payload := versionText t.major t.minor

/-- The request line, without the line break. -/
def line : Payload := t.verb ++ (' ' :: (t.url ++ (' ' :: t.version)))

def headerText : Payload := linesText t.lines ++ crlf

def head : Payload := t.line ++ (crlf ++ t.headerText)

def text : Payload := t.head ++ t.body.text

def header : Header := Header.empty.setAll t.fields

/-- A GET request has no body, and the header of a POST request says how its body is sent. -/
def Framed : Prop :=
  match t.body with
  | .none => t.verb = VERB_GET
  | b => t.verb = VERB_POST ∧ b.Framed t.header

/-- Poco reads the fields, and what is behind the header does not matter. -/
def ReadsFields (poco : Payload → PocoRead) : Prop :=
  ∀ rest, poco (t.headerText ++ rest) = .fields t.fields

/-- The request, as far as this stage. -/
def upTo (stage : RequestStage) (received : Received) : RequestParser :=
  ⟨stage, t.verb, t.url, t.version, t.header, received⟩

/-- After any number of reads the parser is finished if all of the request has come, and not
before; then it has read the request, and consumed nothing else. -/
def FinishesAtEnd (poco : Payload → PocoRead) (pieces : List Payload) : Prop :=
  ∀ before, before <+: pieces → ∃ reader, feedAll (RequestParser.read poco) .empty before = some reader ∧
    (reader.state.stage = .finished ↔ t.text.length ≤ before.flatten.length) ∧
    (reader.state.stage = .finished → ∃ received, reader.state = t.upTo .finished received ∧
      received.body = t.body.decoded ∧ reader.consumed = t.text.length)

/-- Up to here the request is read. -/
def stop : Nat := t.head.length + t.body.stop

end RequestText

/-! ## The request line -/

section

variable {t : RequestText} {token p q rest : Payload} {r : RequestParser} {c : Char}

theorem IsToken.skipSpaceAndTab_prefix (h : IsToken token) (hp : p <+: token ++ rest) :
    skipSpaceAndTab p = p := by
  cases p with
  | nil => rfl
  | cons c p =>
      obtain ⟨d, token, rfl⟩ := List.exists_cons_of_ne_nil h.1
      obtain ⟨rfl, -⟩ := List.cons_prefix_cons.mp hp
      exact skipSpaceAndTab_of_not (h.2 c List.mem_cons_self).1 p

theorem IsToken.not_end (h : IsToken token) : ∀ c ∈ token, (isWhitespace c || c == '\n') = false := by
  intro c hc
  rw [(h.2 c hc).1, Bool.false_or, beq_eq_false_iff_ne]
  exact (h.2 c hc).2

theorem IsToken.findEndOfToken_prefix (h : IsToken token) (hp : p <+: token) :
    findEndOfToken p = p.length :=
  List.findIdx_eq_length.mpr fun c hc => h.not_end c (hp.mem hc)

theorem IsToken.findEndOfToken_append (h : IsToken token) (hc : isWhitespace c = true)
    (q : Payload) : findEndOfToken (token ++ (c :: q)) = token.length :=
  Text.findIdx_append_cons h.not_end (by rw [hc, Bool.true_or]) q

/-- A token has come, or a part of it; it ends only with what is behind it. -/
theorem IsToken.cases_prefix (h : IsToken token) (hc : isWhitespace c = true)
    (hp : p <+: token ++ (c :: rest)) :
    p.length ≤ token.length ∧ findEndOfToken p = p.length ∨
      ∃ q, p = token ++ (c :: q) ∧ q <+: rest ∧ findEndOfToken p = token.length := by
  rcases Nat.lt_or_ge token.length p.length with hlt | hge
  · right
    obtain ⟨q, rfl⟩ := List.prefix_of_prefix_length_le (List.prefix_append _ _) hp hlt.le
    rw [List.prefix_append_right_inj] at hp
    cases q with
    | nil =>
        rw [List.append_nil] at hlt
        exact absurd hlt (Nat.lt_irrefl _)
    | cons d q =>
        obtain ⟨rfl, hq⟩ := List.cons_prefix_cons.mp hp
        exact ⟨q, rfl, hq, h.findEndOfToken_append hc q⟩
  · left
    exact ⟨hge, h.findEndOfToken_prefix
      (List.prefix_of_prefix_length_le hp (List.prefix_append _ _) hge)⟩

/-- What reading the request line changes. -/
def LineRead.Keeps (r : RequestParser) : LineRead → Prop
  | .incomplete r' => r'.stage = r.stage ∧ r'.header = r.header ∧ r'.received = r.received
  | _ => False

theorem isToken_versionText (major minor : Fin 10) : IsToken (versionText major minor) := by
  have hdigit : ∀ n : Nat, n < 10 → isWhitespace n.digitChar = false ∧ n.digitChar ≠ '\n' := by
    intro n hn
    have hdigit := isDigit_digitChar hn
    refine ⟨isWhitespace_of_isDigit hdigit, fun heq => ?_⟩
    rw [heq] at hdigit
    exact absurd hdigit (by decide)
  have hmajor := hdigit _ major.isLt
  have hminor := hdigit _ minor.isLt
  refine ⟨List.cons_ne_nil _ _, ?_⟩
  simp only [versionText, List.forall_mem_cons]
  exact ⟨by decide, by decide, by decide, by decide, by decide, hmajor, by decide, hminor,
    List.forall_mem_nil _⟩

theorem readVersion_prefix (t : RequestText) (r : RequestParser)
    (hp : p <+: t.version ++ (crlf ++ rest)) :
    (∃ q, p = t.version ++ (crlf ++ q) ∧ r.readVersion (skipSpaceAndTab p) =
        .parsed { r with stage := .header, version := t.version } q) ∨
      p.length < t.version.length + 2 ∧ (r.readVersion (skipSpaceAndTab p)).Keeps r := by
  have hversion : IsToken t.version := isToken_versionText t.major t.minor
  rw [hversion.skipSpaceAndTab_prefix hp]
  rcases hversion.cases_prefix rfl hp with ⟨hle, -⟩ | ⟨q, rfl, hq, -⟩
  · right
    have hshort : p.length ≤ VersionLen := hle
    rw [RequestParser.readVersion, if_pos hshort]
    exact ⟨by omega, rfl, rfl, rfl⟩
  · have hlong : ¬ (t.version ++ ('\r' :: q)).length ≤ VersionLen := by
      rw [List.length_append, List.length_cons]
      show ¬ 8 + (q.length + 1) ≤ 8
      omega
    have hvalid : isVersion (t.version ++ ('\r' :: q)) = true :=
      isVersion_versionText t.major t.minor rfl q
    have htake : (t.version ++ ('\r' :: q)).take VersionLen = t.version := rfl
    have hdrop : (t.version ++ ('\r' :: q)).drop VersionLen = '\r' :: q := rfl
    rw [RequestParser.readVersion, if_neg hlong, hvalid]
    simp only [Bool.not_true, Bool.false_eq_true, if_false, htake, hdrop]
    cases q with
    | nil =>
        right
        refine ⟨by simp, ?_⟩
        exact ⟨rfl, rfl, rfl⟩
    | cons c q =>
        left
        obtain ⟨rfl, -⟩ := List.cons_prefix_cons.mp hq
        have hoff : findLineBreak ('\r' :: '\n' :: q) = 1 := rfl
        have hlength : 1 ≠ ('\r' :: '\n' :: q).length := by simp
        rw [hoff, if_neg hlength]
        exact ⟨q, rfl, rfl⟩

theorem readUrl_prefix (t : RequestText) (r : RequestParser)
    (hp : p <+: t.url ++ (' ' :: (t.version ++ (crlf ++ rest)))) :
    (∃ q, p = t.url ++ (' ' :: (t.version ++ (crlf ++ q))) ∧ r.readUrl (skipSpaceAndTab p) =
        .parsed { r with stage := .header, url := t.url, version := t.version } q) ∨
      p.length < t.url.length + (t.version.length + 3) ∧
        (r.readUrl (skipSpaceAndTab p)).Keeps r := by
  rw [t.isUrl.skipSpaceAndTab_prefix hp]
  rcases t.isUrl.cases_prefix rfl hp with ⟨hle, hend⟩ | ⟨q, rfl, hq, hend⟩
  · right
    rw [RequestParser.readUrl]
    simp only [hend, if_true]
    exact ⟨by omega, rfl, rfl, rfl⟩
  · have hlength : t.url.length ≠ (t.url ++ (' ' :: q)).length := by simp
    rw [RequestParser.readUrl]
    simp only [hend, hlength, if_false, List.take_left, List.drop_left, skipSpaceAndTab_space]
    rcases readVersion_prefix t { r with url := t.url } hq with ⟨q, rfl, hread⟩ | ⟨hlt, hkeeps⟩
    · left
      exact ⟨q, rfl, hread⟩
    · right
      refine ⟨?_, ?_⟩
      · rw [List.length_append, List.length_cons]
        omega
      · exact hkeeps

/-- The request line is read when all of it has come. -/
theorem readRequestLine_prefix (t : RequestText) (hverb : IsToken t.verb) (hlong : 3 ≤ t.verb.length)
    (r : RequestParser) (hp : p <+: t.line ++ (crlf ++ rest)) :
    (∃ q, p = t.line ++ (crlf ++ q) ∧ r.readRequestLine p =
        .parsed { r with stage := .header, verb := t.verb, url := t.url, version := t.version } q) ∨
      p.length < t.line.length + 2 ∧ (r.readRequestLine p).Keeps r := by
  have hlength : t.line.length = t.verb.length + (t.url.length + (t.version.length + 2)) := by
    simp only [RequestText.line, List.length_append, List.length_cons]
    omega
  have hversion : t.version.length = 8 := rfl
  have hurl := List.length_pos_iff.mpr t.isUrl.1
  rcases Nat.lt_or_ge p.length MinRequestHeaderLen with hlt | hge
  · right
    rw [RequestParser.readRequestLine, if_pos hlt]
    rw [MinRequestHeaderLen] at hlt
    exact ⟨by omega, rfl, rfl, rfl⟩
  · have hsplit : t.line ++ (crlf ++ rest) =
        t.verb ++ (' ' :: (t.url ++ (' ' :: (t.version ++ (crlf ++ rest))))) := by
      simp [RequestText.line]
    rw [hsplit] at hp
    rw [RequestParser.readRequestLine, if_neg (Nat.not_lt.mpr hge),
      hverb.skipSpaceAndTab_prefix hp]
    rcases hverb.cases_prefix rfl hp with ⟨hle, hend⟩ | ⟨q, rfl, hq, hend⟩
    · right
      simp only [hend, if_true]
      exact ⟨by omega, rfl, rfl, rfl⟩
    · have hne : t.verb.length ≠ (t.verb ++ (' ' :: q)).length := by simp
      simp only [hend, hne, if_false, List.take_left, List.drop_left, skipSpaceAndTab_space]
      rcases readUrl_prefix t { r with verb := t.verb } hq with ⟨q, rfl, hread⟩ | ⟨hlt, hkeeps⟩
      · left
        exact ⟨q, by simp [RequestText.line], hread⟩
      · right
        refine ⟨?_, ?_⟩
        · rw [List.length_append, List.length_cons]
          omega
        · exact hkeeps

end

/-! ## A request in pieces -/

section

variable {t : RequestText} {poco : Payload → PocoRead} {delivered buffer piece rest p : Payload}
  {r : RequestParser} {received : Received}

/-- Where the parser is when so much of a request has come, which is not enough. -/
inductive RequestAt (t : RequestText) : Payload → RequestParser → Payload → Prop
  | requestLine {delivered verb url version : Payload} (h : delivered.length < t.line.length + 2) :
      RequestAt t delivered ⟨.requestLine, verb, url, version, .empty, .none⟩ delivered
  | header {behind : Payload} (h : behind.length < t.headerText.length) :
      RequestAt t (t.line ++ (crlf ++ behind))
        ⟨.header, t.verb, t.url, t.version, .empty, .none⟩ behind
  | body {delivered buffer : Payload} {received : Received} (h : BodyAt t.body delivered received buffer) :
      RequestAt t (t.head ++ delivered) (t.upTo .body received) buffer

namespace RequestText

/-- What has not been consumed when the request has been read. -/
def left (t : RequestText) (delivered : Payload) : Payload :=
  match t.body with
  | .none => delivered.drop t.head.length
  | _ => []

/-- The request, as the last read makes it, and what that has not consumed. -/
def complete (t : RequestText) (delivered : Payload) : RequestParser × Payload :=
  (t.upTo .finished (t.body.received (delivered.drop t.head.length)), t.left delivered)

/-- What a read of a request makes of the parser, when so much of it has come. -/
def Reads (t : RequestText) (delivered : Payload) (result : Option (RequestParser × Payload)) :
    Prop :=
  Feeding.Reads t.stop t.complete (RequestAt t) delivered result

theorem Framed.isVerb (h : t.Framed) : IsToken t.verb ∧ 3 ≤ t.verb.length := by
  have hverb : t.verb = VERB_GET ∨ t.verb = VERB_POST := by
    rw [Framed] at h
    split at h
    · exact .inl h
    · exact .inr h.1
  rcases hverb with hverb | hverb <;> rw [hverb] <;> decide

/-- A request with a body is a POST request whose header says how that is sent. -/
theorem Framed.post (h : t.Framed) (hbody : t.body ≠ .none) :
    t.verb = VERB_POST ∧ t.body.Framed t.header ∧
      (!t.header.hasContentLength && !t.header.chunked) = false := by
  rw [Framed] at h
  split at h
  · exact absurd ‹_› hbody
  · refine ⟨h.1, h.2, ?_⟩
    have hframed := h.2
    cases hb : t.body with
    | none => exact absurd hb hbody
    | content body =>
        rw [hb] at hframed
        simp [hframed.2.1]
    | chunked payloads chunks last trailer =>
        rw [hb] at hframed
        have hchunked : t.header.chunked = true := hframed
        simp [hchunked]

theorem readStageBody_reads (hframed : t.Framed) (hat : BodyAt t.body delivered received buffer)
    (hpiece : delivered ++ piece <+: t.body.text ++ rest) :
    t.Reads (t.head ++ (delivered ++ piece))
      ((t.upTo .body received).readStageBody (buffer ++ piece)) := by
  have hsome : t.body ≠ .none := by
    intro hnone
    rw [hnone] at hat
    cases hat
  obtain ⟨hpost, hbody, hheader⟩ := hframed.post hsome
  have hverb : (t.upTo .body received).verb = VERB_POST := hpost
  have hstage : (t.upTo .body received).readStageBody (buffer ++ piece) =
      match readBody t.header received (buffer ++ piece) with
      | .failed => none
      | .waiting received available => some (t.upTo .body received, available)
      | .finished received => some (t.upTo .finished received, []) := by
    rw [RequestParser.readStageBody, if_neg (by rw [hverb]; decide), if_pos hverb]
    refine if_neg ?_
    show ¬ (!t.header.hasContentLength && !t.header.chunked) = true
    rw [hheader]
    exact Bool.false_ne_true
  have hleft : t.left (t.head ++ (delivered ++ piece)) = [] := by
    rw [left]
    split
    · exact absurd ‹_› hsome
    · rfl
  rw [hstage]
  refine hat.reads t.wellFormed hbody hpiece ?_ fun _ _ hat' => .body hat'
  rw [complete, hleft, List.drop_left]

/-- All of the header has come: it is read, and what is behind it is read as the body. -/
theorem readStageBody_head (hframed : t.Framed) (hp : piece <+: t.body.text ++ rest) :
    t.Reads (t.head ++ piece) ((t.upTo .body .none).readStageBody piece) := by
  by_cases hnone : t.body = .none
  · left
    have hget : (t.upTo .body .none).verb = VERB_GET := by
      rw [Framed, hnone] at hframed
      exact hframed
    have hleft : t.left (t.head ++ piece) = piece := by
      rw [left, hnone]
      exact List.drop_left
    refine ⟨by rw [stop, List.length_append, hnone]; exact Nat.le_add_right _ _, ?_⟩
    rw [RequestParser.readStageBody, if_pos hget, complete, hleft, hnone]
    rfl
  · exact readStageBody_reads hframed (bodyAt_start t.wellFormed hnone) hp

theorem readStageHeader_reads (hframed : t.Framed) (hpoco : t.ReadsFields poco)
    (hlines : t.lines ≠ []) (hp : t.line ++ (crlf ++ p) <+: t.text ++ rest) :
    t.Reads (t.line ++ (crlf ++ p))
      ((⟨.header, t.verb, t.url, t.version, .empty, .none⟩ : RequestParser).readStageHeader
        poco p) := by
  have htext : t.text ++ rest = t.line ++ (crlf ++ (t.headerText ++ (t.body.text ++ rest))) := by
    simp only [text, head, List.append_assoc]
  rw [htext, List.prefix_append_right_inj, List.prefix_append_right_inj] at hp
  rw [RequestParser.readStageHeader]
  rcases Header.parse_prefix t.areLines hlines hpoco hp .empty with ⟨hge, hread⟩ | ⟨hlt, hread⟩
  · obtain ⟨piece, rfl⟩ := List.prefix_of_prefix_length_le (List.prefix_append _ _) hp hge
    rw [List.prefix_append_right_inj] at hp
    have hhead : t.line ++ (crlf ++ (t.headerText ++ piece)) = t.head ++ piece := by
      simp only [head, List.append_assoc]
    rw [← headerText] at hread
    simp only [hread, List.drop_left, hhead]
    exact readStageBody_head hframed hp
  · right
    simp only [hread]
    refine ⟨?_, _, _, rfl, .header hlt⟩
    rw [← headerText] at hlt
    simp only [stop, head, List.length_append]
    omega

/-- One read: the request is finished if its end has come, and not before. -/
theorem readData_reads (hframed : t.Framed) (hpoco : t.ReadsFields poco) (hlines : t.lines ≠ [])
    (hat : RequestAt t delivered r buffer) (hpiece : delivered ++ piece <+: t.text ++ rest) :
    t.Reads (delivered ++ piece) (r.readData poco (buffer ++ piece)) := by
  cases hat with
  | @requestLine _ verb url version hlt =>
      have hsplit : t.text ++ rest = t.line ++ (crlf ++ (t.headerText ++ (t.body.text ++ rest))) := by
        simp only [text, head, List.append_assoc]
      have hstart := hpiece
      rw [hsplit] at hstart
      rw [RequestParser.readData]
      rcases readRequestLine_prefix t hframed.isVerb.1 hframed.isVerb.2
        ⟨.requestLine, verb, url, version, .empty, .none⟩ hstart with
        ⟨q, hq, hread⟩ | ⟨hshort, hkeeps⟩
      · simp only [hread]
        rw [hq] at hpiece ⊢
        exact readStageHeader_reads hframed hpoco hlines hpiece
      · right
        cases hline : (⟨.requestLine, verb, url, version, .empty, .none⟩ :
            RequestParser).readRequestLine (delivered ++ piece) with
        | incomplete r =>
            rw [hline] at hkeeps
            obtain ⟨stage, verb', url', version', header, received⟩ := r
            obtain ⟨rfl, rfl, rfl⟩ := hkeeps
            refine ⟨?_, _, _, rfl, .requestLine hshort⟩
            have hhead : t.line.length + 2 ≤ t.head.length := by
              simp only [head, crlf, List.length_append, List.length_cons, List.length_nil]
              omega
            rw [stop]
            omega
        | failed =>
            rw [hline] at hkeeps
            exact hkeeps.elim
        | parsed r q =>
            rw [hline] at hkeeps
            exact hkeeps.elim
  | @header behind hlt =>
      simp only [List.append_assoc] at hpiece ⊢
      exact readStageHeader_reads hframed hpoco hlines hpiece
  | @body delivered _ received hbody =>
      rw [List.append_assoc] at hpiece ⊢
      rw [text, List.append_assoc, List.prefix_append_right_inj] at hpiece
      exact readStageBody_reads hframed hbody hpiece

theorem readStageBody_length_le {r' : RequestParser} {q : Payload}
    (h : r.readStageBody p = some (r', q)) : q.length ≤ p.length := by
  rw [RequestParser.readStageBody] at h
  split_ifs at h
  · cases h
    exact Nat.le_refl _
  · split at h
    · cases h
    · rename_i hread
      cases h
      exact readBody_length_le hread
    · cases h
      exact Nat.zero_le _

theorem readStageHeader_length_le {r' : RequestParser} {q : Payload}
    (h : r.readStageHeader poco p = some (r', q)) : q.length ≤ p.length := by
  rw [RequestParser.readStageHeader] at h
  split at h
  · cases h
  · cases h
    exact Nat.le_refl _
  · refine (readStageBody_length_le h).trans ?_
    rw [List.length_drop]
    exact Nat.sub_le _ _

/-- What is behind the request line is a part of what was there. -/
theorem readRequestLine_suffix {r' : RequestParser} {q : Payload}
    (h : r.readRequestLine p = .parsed r' q) : q <:+ p := by
  have hversion : ∀ (r : RequestParser) (p : Payload), r.readVersion p = .parsed r' q → q <:+ p := by
    intro r p h
    rw [RequestParser.readVersion] at h
    simp only at h
    split_ifs at h
    cases h
    exact (List.drop_suffix _ _).trans (List.drop_suffix _ _)
  have hurl : ∀ (r : RequestParser) (p : Payload), r.readUrl p = .parsed r' q → q <:+ p := by
    intro r p h
    rw [RequestParser.readUrl] at h
    split_ifs at h
    exact ((hversion _ _ h).trans (List.dropWhile_suffix _)).trans (List.drop_suffix _ _)
  rw [RequestParser.readRequestLine] at h
  simp only at h
  split_ifs at h
  exact (((hurl _ _ h).trans (List.dropWhile_suffix _)).trans (List.drop_suffix _ _)).trans
    (List.dropWhile_suffix _)

/-- Nothing is put back. -/
theorem readData_length_le {r' : RequestParser} {q : Payload}
    (h : r.readData poco p = some (r', q)) : q.length ≤ p.length := by
  rw [RequestParser.readData] at h
  split at h
  · split at h
    · cases h
      exact Nat.le_refl _
    · cases h
    · rename_i hline
      exact (readStageHeader_length_le h).trans (readRequestLine_suffix hline).length_le
  · exact readStageHeader_length_le h
  · exact readStageBody_length_le h
  · cases h
    exact Nat.le_refl _

theorem readsText (hframed : t.Framed) (hpoco : t.ReadsFields poco) (hlines : t.lines ≠ [])
    (rest : Payload) :
    ReadsText (RequestParser.read poco) (t.text ++ rest) t.stop t.complete (RequestAt t) where
  step := readData_reads hframed hpoco hlines
  idle _ _ := rfl
  length_le := readData_length_le

theorem requestAt_start (t : RequestText) : RequestAt t [] .empty [] := .requestLine (Nat.succ_pos _)

theorem stop_pos (t : RequestText) : 0 < t.stop := by
  rw [stop, head, List.length_append, List.length_append]
  exact Nat.add_pos_left (Nat.add_pos_right _ (Nat.add_pos_left Nat.two_pos _)) _

/-- Where the request has not been read the parser is not finished. -/
theorem RequestAt.stage_ne (h : RequestAt t delivered r buffer) : r.stage ≠ .finished := by
  cases h <;> exact nofun

/-- With a line in the header, the parser is finished at the end of a GET request; it is finished
at the end of a POST request if the first read that reaches the end of the body, for no content
one element more, ends there. -/
theorem finishesAtEnd_of_lines {pieces : List Payload} (hframed : t.Framed)
    (hpoco : t.ReadsFields poco) (hlines : t.lines ≠ []) (hpieces : pieces.flatten = t.text ++ rest) :
    t.FinishesAtEnd poco pieces ↔
      t.body = .none ∨ firstCut t.stop 0 pieces = some t.text.length := by
  have hreads := readsText hframed hpoco hlines rest
  by_cases hnone : t.body = .none
  · have htext : t.text = t.head := by
      rw [text, hnone]
      exact List.append_nil _
    have hstop : t.stop = t.text.length := by
      rw [stop, hnone, htext]
      rfl
    simp only [hnone, true_or, iff_true]
    intro before hbefore
    have hstart : before.flatten <+: t.text ++ rest := hpieces ▸ flatten_prefix hbefore
    rcases hreads.feedAll (requestAt_start t) hstart with
      ⟨hcut, r, buffer, hrun, hat⟩ | ⟨cut, left', hcut, hrun⟩
    · have hlt := length_lt_of_firstCut t.stop_pos hcut
      have hstage := RequestAt.stage_ne hat
      refine ⟨_, hrun, ?_, fun h => absurd h hstage⟩
      simp only [hstage, false_iff]
      omega
    · obtain ⟨hge, hle⟩ := le_of_firstCut hcut
      have hshort : cut ≤ (t.text ++ rest).length := by
        have hlength := hstart.length_le
        omega
      refine ⟨_, hrun, ?_, fun _ => ⟨_, rfl, ?_, ?_⟩⟩
      · have hfinished : (t.complete ((t.text ++ rest).take cut)).1.stage = .finished := rfl
        simp only [hfinished, true_iff]
        omega
      · rw [hnone]
        rfl
      · simp only [complete, left, hnone, List.length_drop, List.length_take,
          Nat.min_eq_left hshort, ← htext]
        omega
  · have hleft : ∀ d, (t.complete d).2 = [] := by
      intro d
      show t.left d = []
      rw [left]
      split
      · exact absurd ‹_› hnone
      · rfl
    simp only [hnone, false_or]
    constructor
    · intro hall
      obtain ⟨reader, hreader, hfinished, hexact⟩ := hall pieces (List.prefix_refl _)
      have hend := hfinished.mpr (by rw [hpieces, List.length_append]; exact Nat.le_add_right _ _)
      obtain ⟨received, -, -, hconsumed⟩ := hexact hend
      have hstart : pieces.flatten <+: t.text ++ rest := hpieces ▸ List.prefix_refl _
      rcases hreads.feedAll (requestAt_start t) hstart with
        ⟨-, r, buffer, hrun, hat⟩ | ⟨cut, left', hcut, hrun⟩
      · rw [hreader] at hrun
        cases hrun
        exact absurd hend (RequestAt.stage_ne hat)
      · rw [hreader] at hrun
        cases hrun
        rw [hcut, ← hconsumed]
        simp only [hleft, List.length_nil, Nat.sub_zero]
    · intro hcut before hbefore
      have hstart : before.flatten <+: t.text ++ rest := hpieces ▸ flatten_prefix hbefore
      obtain ⟨more, rfl⟩ := hbefore
      rcases hreads.feedAll (requestAt_start t) hstart with
        ⟨hno, r, buffer, hrun, hat⟩ | ⟨cut, left', hcut', hrun⟩
      · have hlt := length_lt_of_firstCut t.stop_pos hno
        have hstage := RequestAt.stage_ne hat
        have hge := (le_of_firstCut hcut).1
        refine ⟨_, hrun, ?_, fun h => absurd h hstage⟩
        simp only [hstage, false_iff]
        omega
      · have hsame := firstCut_append hcut' more
        rw [hcut] at hsame
        cases hsame
        have hle := (le_of_firstCut hcut').2
        refine ⟨_, hrun, ?_, fun _ => ⟨_, rfl, ?_, ?_⟩⟩
        · have hfinished : (t.complete ((t.text ++ rest).take t.text.length)).1.stage =
              .finished := rfl
          simp only [hfinished, true_iff]
          omega
        · have hbody : t.text.drop t.head.length = t.body.text := List.drop_left
          rw [List.take_left, hbody]
          exact BodyText.received_text
        · simp only [hleft, List.length_nil, Nat.sub_zero]

/-! ### Without a line in the header -/

/-- The header is read, with three elements at least, or nothing happens. -/
theorem readStageHeader_cases {r' : RequestParser} {q : Payload}
    (h : r.readStageHeader poco p = some (r', q)) : r' = r ∧ q = p ∨ q.length + 3 ≤ p.length := by
  rw [RequestParser.readStageHeader] at h
  split at h
  · cases h
  · cases h
    exact .inl ⟨rfl, rfl⟩
  · rename_i read header hparse
    right
    have hle := readStageBody_length_le h
    rw [Header.parse] at hparse
    split_ifs at hparse
    split at hparse
    · cases hparse
    · rename_i n hfound
      have htwo := two_le_of_findBlankLine hfound
      have hlt := (findBlankLine_append hfound []).2
      split at hparse
      · cases hparse
      · cases hparse
      · cases hparse
        rw [List.length_drop] at hle
        omega

/-- A blank line that comes right behind the request line is not taken for the end of the header:
more has been consumed once the header has been read. -/
inductive NoLinesAt (t : RequestText) : Payload → Reader RequestParser Char → Prop
  | requestLine {delivered verb url version : Payload} :
      NoLinesAt t delivered ⟨⟨.requestLine, verb, url, version, .empty, .none⟩, delivered, 0⟩
  | header {delivered : Payload} {reader : Reader RequestParser Char}
      (hstage : reader.state.stage = .header) (h : reader.consumed = t.line.length + 2) :
      NoLinesAt t delivered reader
  | behind {delivered : Payload} {reader : Reader RequestParser Char}
      (h : t.line.length + 5 ≤ reader.consumed) : NoLinesAt t delivered reader

theorem noLinesAt_feed (hframed : t.Framed)
    {reader reader' : Reader RequestParser Char} (hat : NoLinesAt t delivered reader)
    (hpiece : delivered ++ piece <+: t.line ++ (crlf ++ rest))
    (h : feed (RequestParser.read poco) (some reader) piece = some reader') :
    NoLinesAt t (delivered ++ piece) reader' := by
  rw [feed, Option.bind_some] at h
  obtain ⟨⟨r', q⟩, hread, rfl⟩ := Option.map_eq_some_iff.mp h
  cases hat with
  | @requestLine verb url version =>
      simp only [RequestParser.read, RequestParser.readData] at hread
      rcases readRequestLine_prefix t hframed.isVerb.1 hframed.isVerb.2
        ⟨.requestLine, verb, url, version, .empty, .none⟩ hpiece with
        ⟨behind, hbehind, hline⟩ | ⟨-, hkeeps⟩
      · have hlength : (delivered ++ piece).length = t.line.length + 2 + behind.length := by
          rw [hbehind]
          simp only [crlf, List.length_append, List.length_cons, List.length_nil]
          omega
        simp only [hline] at hread
        rcases readStageHeader_cases hread with ⟨rfl, rfl⟩ | hle
        · refine .header rfl ?_
          simp only [hlength]
          omega
        · refine .behind ?_
          simp only [hlength]
          omega
      · cases hline : (⟨.requestLine, verb, url, version, .empty, .none⟩ :
            RequestParser).readRequestLine (delivered ++ piece) with
        | incomplete r =>
            rw [hline] at hkeeps hread
            obtain ⟨stage, verb', url', version', header, received⟩ := r
            obtain ⟨rfl, rfl, rfl⟩ := hkeeps
            cases hread
            simp only [Nat.sub_self, Nat.add_zero]
            exact .requestLine
        | failed =>
            rw [hline] at hkeeps
            exact hkeeps.elim
        | parsed r q =>
            rw [hline] at hkeeps
            exact hkeeps.elim
  | header hstage hconsumed =>
      simp only [RequestParser.read, RequestParser.readData, hstage] at hread
      rcases readStageHeader_cases hread with ⟨rfl, rfl⟩ | hle
      · refine .header hstage ?_
        simp only [hconsumed, Nat.sub_self, Nat.add_zero]
      · refine .behind ?_
        simp only [hconsumed]
        omega
  | behind hconsumed => exact .behind (Nat.le_add_right_of_le hconsumed)

theorem noLinesAt_feedAll {pieces : List Payload} (hframed : t.Framed)
    {reader reader' : Reader RequestParser Char} (hat : NoLinesAt t delivered reader)
    (hpieces : delivered ++ pieces.flatten <+: t.line ++ (crlf ++ rest))
    (h : pieces.foldl (feed (RequestParser.read poco)) (some reader) = some reader') :
    NoLinesAt t (delivered ++ pieces.flatten) reader' := by
  induction pieces generalizing delivered reader with
  | nil =>
      cases h
      simpa using hat
  | cons piece pieces ih =>
      rw [List.flatten_cons, ← List.append_assoc] at hpieces ⊢
      rw [List.foldl_cons] at h
      cases hfeed : feed (RequestParser.read poco) (some reader) piece with
      | none =>
          rw [hfeed, foldl_feed_none] at h
          cases h
      | some reader₁ =>
          rw [hfeed] at h
          have hstart := (List.prefix_append (delivered ++ piece) pieces.flatten).trans hpieces
          exact ih (noLinesAt_feed hframed hat hstart hfeed) hpieces h

/-- Only a GET request is sent without a line in its header. -/
theorem body_of_no_lines (hframed : t.Framed) (hlines : t.lines = []) : t.body = .none := by
  have hheader : t.header = Header.empty.setAll [] := by rw [header, t.noFields hlines]
  by_contra hbody
  obtain ⟨-, -, hsome⟩ := hframed.post hbody
  rw [hheader] at hsome
  exact absurd hsome (by decide)

theorem not_finishesAtEnd_of_no_lines {pieces : List Payload} (hframed : t.Framed)
    (hlines : t.lines = []) (hpieces : pieces.flatten = t.text ++ rest) :
    ¬ t.FinishesAtEnd poco pieces := by
  intro hall
  have htext : t.text = t.line ++ (crlf ++ crlf) := by
    rw [text, body_of_no_lines hframed hlines, head, headerText, hlines]
    exact List.append_nil _
  have hlength : t.text.length = t.line.length + 4 := by
    rw [htext, List.length_append]
    rfl
  have hsplit : pieces.flatten = t.line ++ (crlf ++ (crlf ++ rest)) := by
    rw [hpieces, htext, List.append_assoc, List.append_assoc]
  have hstart : [] ++ pieces.flatten <+: t.line ++ (crlf ++ (crlf ++ rest)) :=
    hsplit ▸ List.prefix_refl _
  obtain ⟨reader, hreader, hfinished, hexact⟩ := hall pieces (List.prefix_refl _)
  have hend := hfinished.mpr (by rw [hpieces, List.length_append]; exact Nat.le_add_right _ _)
  obtain ⟨received, -, -, hconsumed⟩ := hexact hend
  have hat := noLinesAt_feedAll hframed .requestLine hstart hreader
  cases hat with
  | requestLine => cases hend
  | header hstage h =>
      rw [hstage] at hend
      cases hend
  | behind h => omega

/-- The parser is finished at the end of the request, and nothing else is consumed, if the header
has a line, and if for a POST request the first read that reaches the end of its body ends there.
The end of the body is where the line of the last chunk ends, or for no content one element behind
the header. -/
theorem finishesAtEnd_iff {pieces : List Payload} (hframed : t.Framed) (hpoco : t.ReadsFields poco)
    (hpieces : pieces.flatten = t.text ++ rest) :
    t.FinishesAtEnd poco pieces ↔
      t.lines ≠ [] ∧ (t.body = .none ∨ firstCut t.stop 0 pieces = some t.text.length) := by
  by_cases hlines : t.lines = []
  · have hnot := @not_finishesAtEnd_of_no_lines t poco rest pieces hframed hlines hpieces
    simp only [hlines, ne_eq, not_true, false_and, hnot]
  · rw [finishesAtEnd_of_lines hframed hpoco hlines hpieces]
    simp only [ne_eq, hlines, not_false_eq_true, true_and]

end RequestText

end

/-- An empty body is announced. -/
def emptyPost : RequestText where
  verb := VERB_POST
  url := ['/']
  major := 1
  minor := 1
  lines := fieldLines [(Header.CONTENT_LENGTH, ['0'])]
  fields := [(Header.CONTENT_LENGTH, ['0'])]
  body := .content []
  isUrl := by decide
  areLines := by
    intro line hline
    rw [List.mem_singleton.mp hline]
    exact ⟨by decide, by decide⟩
  noFields := nofun
  wellFormed := trivial

theorem emptyPost_framed : emptyPost.Framed := ⟨rfl, by decide, by decide, by decide⟩

theorem emptyPost_readsFields : emptyPost.ReadsFields plainRead := fun _ => rfl

theorem finishesAtEnd_iff_emptyPost :
    emptyPost.FinishesAtEnd plainRead [emptyPost.text] ↔ emptyPost.lines ≠ [] ∧
      (emptyPost.body = .none ∨
        firstCut emptyPost.stop 0 [emptyPost.text] = some emptyPost.text.length) :=
  RequestText.finishesAtEnd_iff emptyPost_framed emptyPost_readsFields
    (by simp : [emptyPost.text].flatten = emptyPost.text ++ [])

/-- The parser waits for a body of which there is none. -/
theorem not_finishesAtEnd_emptyPost : ¬ ∀ (t : RequestText) (poco : Payload → PocoRead)
    (pieces : List Payload) (rest : Payload), t.Framed → t.ReadsFields poco →
    pieces.flatten = t.text ++ rest → t.FinishesAtEnd poco pieces := by
  intro h
  obtain ⟨reader, hreader, hfinished, -⟩ := h emptyPost plainRead [emptyPost.text] []
    emptyPost_framed emptyPost_readsFields (by simp) [emptyPost.text] (List.prefix_refl _)
  have hend := hfinished.mpr (by simp)
  have hstage : (feedAll (RequestParser.read plainRead) .empty [emptyPost.text]).map
      (fun reader => reader.state.stage) = some .finished := by
    rw [hreader, Option.map_some, hend]
  exact absurd hstage (by decide +kernel)

end CoolOnline.Http
