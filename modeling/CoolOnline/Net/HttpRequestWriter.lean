import CoolOnline.Net.HttpRequest
import Mathlib.Data.List.Infix

/-! # Writing a request

`Request::writeData` of `net/HttpRequest.cpp`, which is called until the request is finished, and
what `RequestParser::readData` makes of the bytes.
-/

namespace CoolOnline.Http

open HexUtil Chunked

/-- A request that is being written, with what `_bodyReaderCb` returns, call by call; it returns
zero after that. There is no block where it returns an error. -/
structure Request where
  stage : RequestStage
  verb : Payload
  url : Payload
  version : Payload
  header : Header
  blocks : List (Option Payload)
deriving DecidableEq, Repr

/-- `sizeof(buffer)`. -/
def blockSize : Nat := 64 * 1024

/-- A block of the body, as it is written. -/
def blockText (chunked : Bool) (data : Payload) : Payload :=
  if chunked then Nat.toDigits 16 data.length ++ (crlf ++ (data ++ crlf)) else data

def lastChunk : Payload := ['0', '\r', '\n', '\r', '\n']

/-- The loop over the blocks: the stage, the blocks that are left, and what is written. -/
def writeBlocks (chunked : Bool) (capacity : Nat) :
    Nat → List (Option Payload) → Option (RequestStage × List (Option Payload) × Payload)
  | _, [] => some (.finished, [], if chunked then lastChunk else [])
  | _, none :: _ => none
  | wrote, some data :: blocks =>
      if data = [] then some (.finished, blocks, if chunked then lastChunk else [])
      else
        let text := blockText chunked data
        if wrote + text.length < capacity then
          (writeBlocks chunked capacity (wrote + text.length) blocks).map fun result =>
            (result.1, result.2.1, text ++ result.2.2)
        else some (.body, blocks, text)

namespace Request

variable (r : Request)

/-- Whether the body is written in chunks. -/
def writesChunks : Bool :=
  decide (chunkedWord <:+: (r.header.get Header.TRANSFER_ENCODING).map Char.toLower)

def headText : Payload :=
  r.verb ++ (' ' :: (r.url ++ (' ' :: (r.version ++ (crlf ++ (r.header.writeData ++ crlf))))))

/-- The request, and what is written; there is none when the reader fails. -/
def writeData (capacity : Nat) : Option (Request × Payload) :=
  let head := if r.stage = .requestLine then r.headText else []
  let stage := if r.stage = .requestLine then .body else r.stage
  if stage = .body then
    (writeBlocks r.writesChunks capacity 0 r.blocks).map fun result =>
      ({ r with stage := result.1, blocks := result.2.1 }, head ++ result.2.2)
  else some ({ r with stage := stage }, head)

/-- One call after the other until the request is finished. -/
def writeAll (r : Request) : List Nat → Option (Request × Payload)
  | [] => some (r, [])
  | capacity :: capacities =>
      (r.writeData capacity).bind fun result =>
        if result.1.stage = .finished then some result
        else (result.1.writeAll capacities).map fun rest => (rest.1, result.2 ++ rest.2)

end Request

/-- A request to send. The URL and the fields have no line break, and no block is larger than the
buffer it is read into. -/
structure Upload where
  verb : Payload
  url : Payload
  version : Payload
  fields : List Field
  blocks : List Payload
  isVerb : verb = VERB_GET ∨ verb = VERB_POST
  oneLine : '\n' ∉ url
  areLines : ∀ field ∈ fields, '\n' ∉ field.1 ∧ '\n' ∉ field.2
  areBlocks : ∀ block ∈ blocks, block ≠ [] ∧ block.length ≤ blockSize

namespace Upload

variable (u : Upload)

def header : Header := ⟨u.fields, false⟩

def body : Payload := u.blocks.flatten

def request : Request :=
  ⟨.requestLine, u.verb, u.url, u.version, u.header, u.blocks.map some⟩

/-- Poco reads the fields that are written, and what is behind the header does not matter. -/
def ReadsFields (poco : Payload → PocoRead) : Prop :=
  ∀ rest, poco (u.header.writeData ++ crlf ++ rest) = .fields u.fields

/-- The parser finishes the request with everything in it. -/
def Recovers (poco : Payload → PocoRead) (text : Payload) : Prop :=
  ∃ parser left, RequestParser.empty.readData poco text = some (parser, left) ∧
    parser.stage = .finished ∧ parser.verb = u.verb ∧ parser.url = u.url ∧
    parser.version = u.version ∧ parser.header.headers = u.fields ∧ parser.received.body = u.body

/-- Whatever the capacities, the same is written, and the parser recovers the request from it. -/
def Agrees (poco : Payload → PocoRead) : Prop :=
  ∃ text, u.Recovers poco text ∧
    (∀ capacities r out, u.request.writeAll capacities = some (r, out) → r.stage = .finished →
      out = text) ∧
    ∀ capacities, u.blocks.length < capacities.length →
      ∃ r, u.request.writeAll capacities = some (r, text) ∧ r.stage = .finished

/-- Whether the parser takes the body for what it is. -/
def BodyReadable : Prop :=
  u.verb = VERB_GET ∧ u.body = [] ∨
    u.verb = VERB_POST ∧ (u.header.getTransferEncoding = chunkedWord ∨
      u.request.writesChunks = false ∧ u.header.hasContentLength = true ∧ u.body ≠ [] ∧
        u.header.getContentLength ≤ u.body.length)

/-- A version of the protocol. -/
def IsVersion (version : Payload) : Prop := ∃ major minor, version = versionText major minor

/-- What the parser recovers. -/
structure Readable : Prop where
  url : IsToken u.url
  version : IsVersion u.version
  hasFields : u.fields ≠ []
  areTrimmed : u.fields.map trimField = u.fields
  distinct : DistinctNames u.fields
  body : u.BodyReadable

end Upload

/-! ## What is written -/

section

variable {chunked : Bool} {capacity wrote : Nat} {blocks : List Payload} {u : Upload}

def endText (chunked : Bool) : Payload := if chunked then lastChunk else []

/-- The blocks that are written by one call, which are all of them or some. -/
theorem writeBlocks_eq (h : ∀ block ∈ blocks, block ≠ []) :
    writeBlocks chunked capacity wrote (blocks.map some) =
        some (.finished, [], blocks.flatMap (blockText chunked) ++ endText chunked) ∨
      ∃ done left, blocks = done ++ left ∧ done ≠ [] ∧
        writeBlocks chunked capacity wrote (blocks.map some) =
          some (.body, left.map some, done.flatMap (blockText chunked)) := by
  induction blocks generalizing wrote with
  | nil => exact .inl rfl
  | cons data blocks ih =>
      have hdata := h data List.mem_cons_self
      rw [List.map_cons, writeBlocks, if_neg hdata]
      simp only
      split_ifs with hmore
      · rcases ih (fun b hb => h b (List.mem_cons_of_mem data hb)) with hrest | ⟨done, left, rfl, -, hrest⟩
        · left
          rw [hrest, Option.map_some, List.flatMap_cons, List.append_assoc]
        · right
          refine ⟨data :: done, left, rfl, List.cons_ne_nil _ _, ?_⟩
          rw [hrest, Option.map_some, List.flatMap_cons]
      · right
        exact ⟨[data], blocks, rfl, List.cons_ne_nil _ _, by simp⟩

/-- The request, once its header has been written, with these blocks of the body left. -/
def Upload.sending (u : Upload) (blocks : List Payload) : Request :=
  ⟨.body, u.verb, u.url, u.version, u.header, blocks.map some⟩

/-- The body with these blocks, as it is written. -/
def Upload.bodyText (u : Upload) (blocks : List Payload) : Payload :=
  blocks.flatMap (blockText u.request.writesChunks) ++ endText u.request.writesChunks

def Upload.text (u : Upload) : Payload := u.request.headText ++ u.bodyText u.blocks

theorem writeAll_sending (u : Upload) (h : ∀ block ∈ blocks, block ≠ []) (capacities : List Nat) :
    ∃ r out, (u.sending blocks).writeAll capacities = some (r, out) ∧
      (r.stage = .finished ∧ out = u.bodyText blocks ∨
        r.stage ≠ .finished ∧ capacities.length ≤ blocks.length) := by
  induction capacities generalizing blocks with
  | nil => exact ⟨_, _, rfl, .inr ⟨nofun, Nat.zero_le _⟩⟩
  | cons capacity capacities ih =>
      have hchunks : (u.sending blocks).writesChunks = u.request.writesChunks := rfl
      have hdata : (u.sending blocks).writeData capacity =
          (writeBlocks u.request.writesChunks capacity 0 (blocks.map some)).map fun result =>
            (⟨result.1, u.verb, u.url, u.version, u.header, result.2.1⟩, result.2.2) := rfl
      rw [Request.writeAll, hdata]
      rcases writeBlocks_eq h with hall | ⟨done, left, rfl, hne, hsome⟩
      · rw [hall]
        exact ⟨_, _, rfl, .inl ⟨rfl, rfl⟩⟩
      · obtain ⟨r, out, hrest, hend⟩ :=
          ih fun b hb => h b (List.mem_append_right done hb)
        rw [hsome, Option.map_some, Option.bind_some, if_neg nofun]
        have hsending : (⟨.body, u.verb, u.url, u.version, u.header, left.map some⟩ : Request) =
          u.sending left := rfl
        rw [hsending, hrest]
        refine ⟨_, _, rfl, ?_⟩
        rcases hend with ⟨hfinished, rfl⟩ | ⟨hnot, hle⟩
        · left
          refine ⟨hfinished, ?_⟩
          rw [Upload.bodyText, Upload.bodyText, List.flatMap_append, List.append_assoc]
        · right
          have hpos := List.length_pos_iff.mpr hne
          rw [List.length_append, List.length_cons]
          exact ⟨hnot, by omega⟩

/-- What is written does not depend on the capacities, and all of it is written after some calls. -/
theorem writeAll_request (u : Upload) (capacities : List Nat) :
    ∃ r out, u.request.writeAll capacities = some (r, out) ∧
      (r.stage = .finished ∧ out = u.text ∨
        r.stage ≠ .finished ∧ capacities.length ≤ u.blocks.length) := by
  cases capacities with
  | nil => exact ⟨_, _, rfl, .inr ⟨nofun, Nat.zero_le _⟩⟩
  | cons capacity capacities =>
      have hblocks : ∀ block ∈ u.blocks, block ≠ [] := fun block hb => (u.areBlocks block hb).1
      obtain ⟨r, out, hrest, hend⟩ := writeAll_sending u hblocks (capacity :: capacities)
      have hdata : u.request.writeData capacity =
          ((u.sending u.blocks).writeData capacity).map fun result =>
            (result.1, u.request.headText ++ result.2) := by
        have hsending : (u.sending u.blocks).writeData capacity =
            (writeBlocks u.request.writesChunks capacity 0 (u.blocks.map some)).map fun result =>
              (⟨result.1, u.verb, u.url, u.version, u.header, result.2.1⟩, result.2.2) := rfl
        rw [hsending, Option.map_map]
        rfl
      have hall : u.request.writeAll (capacity :: capacities) = some (r, u.request.headText ++ out) := by
        rw [Request.writeAll] at hrest ⊢
        rw [hdata]
        cases hsent : (u.sending u.blocks).writeData capacity with
        | none =>
            rw [hsent] at hrest
            cases hrest
        | some result =>
            rw [hsent, Option.bind_some] at hrest
            rw [Option.map_some, Option.bind_some]
            split_ifs at hrest ⊢
            · cases hrest
              rfl
            · obtain ⟨rest, hwritten, hparts⟩ := Option.map_eq_some_iff.mp hrest
              cases hparts
              rw [hwritten, Option.map_some, List.append_assoc]
      refine ⟨_, _, hall, ?_⟩
      rcases hend with ⟨hfinished, rfl⟩ | hnot
      · exact .inl ⟨hfinished, rfl⟩
      · exact .inr hnot

end

/-! ## What is read -/

section

variable {u : Upload} {poco : Payload → PocoRead} {r r' : RequestParser} {p q token : Payload}
  {c : Char}

theorem exists_digitChar (h : c.isDigit = true) : ∃ d : Fin 10, c = d.val.digitChar := by
  have hall : ∀ d : Fin 10, Char.ofNat (48 + d.val) = d.val.digitChar := by decide
  simp only [Char.isDigit, Bool.and_eq_true, decide_eq_true_eq, ge_iff_le] at h
  have hlow : 48 ≤ c.toNat := UInt32.le_iff_toNat_le.mp h.1
  have hhigh : c.toNat ≤ 57 := UInt32.le_iff_toNat_le.mp h.2
  refine ⟨⟨c.toNat - 48, by omega⟩, ?_⟩
  rw [← hall, Nat.add_sub_cancel' hlow, Char.ofNat_toNat]

theorem isVersion_take (h : isVersion p = true) : Upload.IsVersion (p.take VersionLen) := by
  rw [isVersion.eq_def] at h
  split at h
  · simp only [Bool.and_eq_true, beq_iff_eq] at h
    obtain ⟨⟨⟨⟨⟨⟨⟨⟨rfl, rfl⟩, rfl⟩, rfl⟩, rfl⟩, hmajor⟩, rfl⟩, hminor⟩, -⟩ := h
    obtain ⟨major, rfl⟩ := exists_digitChar hmajor
    obtain ⟨minor, rfl⟩ := exists_digitChar hminor
    exact ⟨major, minor, rfl⟩
  · cases h

/-- What is known of a request line that has been read. -/
theorem readVersion_parsed (h : r.readVersion p = .parsed r' q) :
    r'.url = r.url ∧ r'.verb = r.verb ∧ Upload.IsVersion r'.version := by
  rw [RequestParser.readVersion] at h
  simp only at h
  split_ifs at h with hlong hversion
  cases h
  refine ⟨rfl, rfl, isVersion_take ?_⟩
  simpa using hversion

theorem readUrl_parsed (h : r.readUrl p = .parsed r' q) :
    r'.url = p.take (findEndOfToken p) ∧ Upload.IsVersion r'.version := by
  rw [RequestParser.readUrl] at h
  split_ifs at h
  obtain ⟨hurl, -, hversion⟩ := readVersion_parsed h
  exact ⟨hurl, hversion⟩

theorem readRequestLine_verb (hverb : IsToken token)
    (hlong : MinRequestHeaderLen ≤ (token ++ (' ' :: p)).length) (r : RequestParser) :
    r.readRequestLine (token ++ (' ' :: p)) =
      { r with verb := token }.readUrl (skipSpaceAndTab p) := by
  have hskip : skipSpaceAndTab (token ++ (' ' :: p)) = token ++ (' ' :: p) :=
    hverb.skipSpaceAndTab_prefix (List.prefix_refl _)
  have hend := hverb.findEndOfToken_append (rfl : isWhitespace ' ' = true) p
  have hlength : token.length ≠ (token ++ (' ' :: p)).length := by simp
  rw [RequestParser.readRequestLine, if_neg (Nat.not_lt.mpr hlong), hskip]
  simp only [hend, hlength, if_false, List.take_left, List.drop_left, skipSpaceAndTab_space]

theorem readStageBody_keeps {left : Payload} (h : r.readStageBody p = some (r', left)) :
    r'.verb = r.verb ∧ r'.url = r.url ∧ r'.version = r.version ∧ r'.header = r.header := by
  rw [RequestParser.readStageBody] at h
  split_ifs at h
  · cases h
    exact ⟨rfl, rfl, rfl, rfl⟩
  · split at h
    · cases h
    · cases h
      exact ⟨rfl, rfl, rfl, rfl⟩
    · cases h
      exact ⟨rfl, rfl, rfl, rfl⟩

theorem readStageHeader_keeps {left : Payload} (h : r.readStageHeader poco p = some (r', left)) :
    r'.verb = r.verb ∧ r'.url = r.url ∧ r'.version = r.version := by
  rw [RequestParser.readStageHeader] at h
  split at h
  · cases h
  · cases h
    exact ⟨rfl, rfl, rfl⟩
  · obtain ⟨hverb, hurl, hversion, -⟩ := readStageBody_keeps h
    exact ⟨hverb, hurl, hversion⟩

theorem readRequestLine_incomplete (h : r.readRequestLine p = .incomplete r') :
    r'.stage = r.stage := by
  have hversion : ∀ (r : RequestParser) (p : Payload), r.readVersion p = .incomplete r' →
      r'.stage = r.stage := by
    intro r p h
    rw [RequestParser.readVersion] at h
    simp only at h
    split_ifs at h
    · cases h
      rfl
    · cases h
      rfl
  have hurl : ∀ (r : RequestParser) (p : Payload), r.readUrl p = .incomplete r' →
      r'.stage = r.stage := by
    intro r p h
    rw [RequestParser.readUrl] at h
    split_ifs at h
    · cases h
      rfl
    · exact (hversion _ _ h).trans rfl
  rw [RequestParser.readRequestLine] at h
  simp only at h
  split_ifs at h
  · cases h
    rfl
  · cases h
    rfl
  · exact (hurl _ _ h).trans rfl

namespace Upload

theorem isToken_verb (u : Upload) : IsToken u.verb ∧ 3 ≤ u.verb.length := by
  rcases u.isVerb with hverb | hverb <;> rw [hverb] <;> decide

/-- The header, with the blank line behind it. -/
def headerText (u : Upload) : Payload := u.header.writeData ++ crlf

theorem text_eq (u : Upload) :
    u.text = u.verb ++ (' ' :: (u.url ++ (' ' :: (u.version ++
      (crlf ++ (u.headerText ++ u.bodyText u.blocks)))))) := by
  simp [text, Request.headText, headerText, request]

/-- The URL and the version are not recovered unless they are what a request line has there. -/
theorem Recovers.requestLine (h : u.Recovers poco u.text) : IsToken u.url ∧ IsVersion u.version := by
  obtain ⟨parser, left, hread, hstage, -, hurl, hversion, -⟩ := h
  rw [RequestParser.readData] at hread
  simp only [RequestParser.empty] at hread
  cases hline : (⟨.requestLine, [], [], [], .empty, .none⟩ : RequestParser).readRequestLine u.text with
  | incomplete r =>
      simp only [hline] at hread
      cases hread
      rw [readRequestLine_incomplete hline] at hstage
      cases hstage
  | failed =>
      simp only [hline] at hread
      cases hread
  | parsed r q =>
      simp only [hline] at hread
      obtain ⟨-, hurl', hversion'⟩ := readStageHeader_keeps hread
      rw [text_eq] at hline
      have hlong : MinRequestHeaderLen ≤ (u.verb ++ (' ' :: (u.url ++ (' ' :: (u.version ++
          (crlf ++ (u.headerText ++ u.bodyText u.blocks))))))).length := by
        by_contra hshort
        rw [RequestParser.readRequestLine, if_pos (Nat.lt_of_not_le hshort)] at hline
        cases hline
      rw [readRequestLine_verb u.isToken_verb.1 hlong] at hline
      obtain ⟨htake, hform⟩ := readUrl_parsed hline
      rw [← hversion', hversion] at hform
      rw [← hurl', hurl] at htake
      refine ⟨⟨?_, ?_⟩, hform⟩
      · intro hempty
        obtain ⟨major, minor, hform⟩ := hform
        have htoken := isToken_versionText major minor
        rw [hempty, List.nil_append, skipSpaceAndTab_space, hform,
          htoken.skipSpaceAndTab_prefix (List.prefix_refl _)] at htake
        have hend := htoken.findEndOfToken_append (rfl : isWhitespace '\r' = true)
          ('\n' :: (u.headerText ++ u.bodyText u.blocks))
        have hsplit : crlf ++ (u.headerText ++ u.bodyText u.blocks) =
            '\r' :: '\n' :: (u.headerText ++ u.bodyText u.blocks) := rfl
        rw [hsplit, hend, List.take_left] at htake
        exact htoken.1 htake.symm
      · intro c hc
        rw [htake] at hc
        have hnot := List.false_of_mem_take_findIdx hc
        rw [Bool.or_eq_false_iff, beq_eq_false_iff_ne] at hnot
        exact hnot

/-- Up to the header the parser reads what was written. -/
theorem readData_text (hurl : IsToken u.url) (hversion : IsVersion u.version) :
    RequestParser.empty.readData poco u.text =
      (⟨.header, u.verb, u.url, u.version, .empty, .none⟩ : RequestParser).readStageHeader poco
        (u.headerText ++ u.bodyText u.blocks) := by
  obtain ⟨major, minor, hform⟩ := hversion
  -- The request line is one of a request without a header.
  let t : RequestText := ⟨u.verb, u.url, major, minor, [], [], .none, hurl, nofun, fun _ => rfl, trivial⟩
  have htext : u.text = t.line ++ (crlf ++ (u.headerText ++ u.bodyText u.blocks)) := by
    rw [text_eq, hform]
    simp [t, RequestText.line, RequestText.version]
  rcases readRequestLine_prefix t u.isToken_verb.1 u.isToken_verb.2 .empty
    (List.prefix_refl (t.line ++ (crlf ++ (u.headerText ++ u.bodyText u.blocks)))) with
    ⟨q, hq, hread⟩ | ⟨hlt, -⟩
  · rw [List.append_cancel_left_eq, List.append_cancel_left_eq] at hq
    rw [RequestParser.readData, htext]
    simp only [RequestParser.empty] at hread ⊢
    rw [hread, ← hq, hform]
    rfl
  · simp only [crlf, List.length_append, List.length_cons, List.length_nil] at hlt
    omega

/-! ### The body -/

theorem chunkLine_block (data : Payload) :
    ChunkLine (Nat.toDigits 16 data.length ++ crlf) data.length := by
  obtain ⟨hvalue, hdigits⟩ := hexValue_toDigits data.length
  exact ⟨_, ['\r'], rfl, Nat.toDigits_ne_nil, hdigits, by simp [isHexDigit, hexDigitFromChar],
    by decide, hvalue⟩

theorem chunks_blocks {blocks : List Payload} (h : ∀ block ∈ blocks, block ≠ []) :
    Chunks ChunkLine crlf blocks (blocks.flatMap (blockText true)) := by
  induction blocks with
  | nil => exact .nil
  | cons data blocks ih =>
      have hrest := ih fun b hb => h b (List.mem_cons_of_mem data hb)
      have hchunk := Chunks.cons (chunkLine_block data) (h data List.mem_cons_self) hrest
      simpa [blockText] using hchunk

theorem chunkLine_last : ChunkLine ['0', '\r', '\n'] 0 :=
  ⟨['0'], ['\r'], rfl, by decide, List.forall_mem_singleton.mpr rfl, fun _ hc => by cases hc; rfl,
    by decide, by decide⟩

/-- Chunks are read as the blocks that were written. -/
theorem readBody_chunks (header : Header) (hheader : header.chunked = true)
    (hwriter : u.request.writesChunks = true) :
    readBody header .none (u.bodyText u.blocks) = .finished (Received.none.write u.body) := by
  have hblocks : ∀ block ∈ u.blocks, block ≠ [] := fun block hb => (u.areBlocks block hb).1
  have hsmall : ∀ block ∈ u.blocks, block.length < maxChunk := fun block hb =>
    Nat.lt_of_le_of_lt (u.areBlocks block hb).2 (by decide)
  have htext : u.bodyText u.blocks =
      u.blocks.flatMap (blockText true) ++ (['0', '\r', '\n'] ++ crlf) := by
    rw [bodyText, hwriter]
    rfl
  rw [readBody, if_pos hheader, htext]
  rcases readChunks_prefix (chunks_blocks hblocks) chunkLine_last hsmall (List.prefix_refl _)
    (Nat.lt_succ_self _) .none with ⟨-, hread⟩ | ⟨hlt, -⟩
  · exact hread
  · simp only [List.length_append] at hlt
    omega

theorem length_body_lt (hwriter : u.request.writesChunks = true) :
    u.body.length < (u.bodyText u.blocks).length := by
  have hle : ∀ blocks : List Payload,
      blocks.flatten.length ≤ (blocks.flatMap (blockText true)).length := by
    intro blocks
    induction blocks with
    | nil => exact Nat.le_refl _
    | cons data blocks ih =>
        simp only [List.flatten_cons, List.flatMap_cons, List.length_append, blockText, if_true]
        omega
  have hend : (endText true).length = 5 := rfl
  rw [bodyText, hwriter, List.length_append, hend]
  exact Nat.lt_of_le_of_lt (hle u.blocks) (by omega)

theorem bodyText_of_not_chunks (hwriter : u.request.writesChunks = false) :
    u.bodyText u.blocks = u.body := by
  have hsame : ∀ blocks : List Payload, blocks.flatMap (blockText false) = blocks.flatten := by
    intro blocks
    induction blocks with
    | nil => rfl
    | cons data blocks ih => rw [List.flatMap_cons, ih, List.flatten_cons]; rfl
  rw [bodyText, hwriter, hsame]
  exact List.append_nil _

/-- The header that is read, if no field changes. -/
def readHeader (u : Upload) : Header := ⟨u.fields, u.header.getTransferEncoding == chunkedWord⟩

theorem writesChunks_of_eq (h : u.header.getTransferEncoding = chunkedWord) :
    u.request.writesChunks = true := by
  have hget : u.request.header.get Header.TRANSFER_ENCODING = chunkedWord := h
  rw [Request.writesChunks, hget]
  decide

/-- The parser finishes with the body that was sent. -/
def ReadsBody (u : Upload) : Prop :=
  ∃ parser left, (⟨.body, u.verb, u.url, u.version, u.readHeader, .none⟩ :
      RequestParser).readStageBody (u.bodyText u.blocks) = some (parser, left) ∧
    parser.stage = .finished ∧ parser.received.body = u.body

theorem readsBody_get (hverb : u.verb = VERB_GET) : u.ReadsBody ↔ u.BodyReadable := by
  have hread : (⟨.body, u.verb, u.url, u.version, u.readHeader, .none⟩ :
      RequestParser).readStageBody (u.bodyText u.blocks) =
      some (⟨.finished, u.verb, u.url, u.version, u.readHeader, .none⟩, u.bodyText u.blocks) := by
    rw [RequestParser.readStageBody, if_pos hverb]
  have hreadable : u.BodyReadable ↔ u.body = [] := by
    constructor
    · rintro (⟨-, hbody⟩ | ⟨hpost, -⟩)
      · exact hbody
      · rw [hverb] at hpost
        exact absurd hpost (by decide)
    · exact fun hbody => .inl ⟨hverb, hbody⟩
  rw [ReadsBody, hread, hreadable]
  constructor
  · rintro ⟨parser, left, hsome, -, hbody⟩
    cases hsome
    exact hbody.symm
  · intro hbody
    exact ⟨_, _, rfl, rfl, hbody.symm⟩

/-- What is not taken for chunks is the body if it is long enough, and was not written in chunks. -/
theorem readContent_finished (header : Header) (p : Payload) :
    (∃ received, readContent header .none p = .finished received ∧ received.body = u.body) ↔
      p = u.body ∧ p ≠ [] ∧ header.hasContentLength = true ∧ header.getContentLength ≤ p.length := by
  rw [readContent]
  by_cases hp : p = []
  · rw [if_pos hp]
    simp [hp]
  · have hsize : (Received.none.write p).recvBodySize = p.length := Nat.zero_add _
    rw [if_neg hp]
    simp only [hsize]
    split_ifs with hlength
    · simp [Received.write, Received.none, hp, hlength]
    · simp only [false_and, exists_false, false_iff]
      rintro ⟨-, -, hheader⟩
      exact hlength hheader

theorem readsBody_post (hverb : u.verb = VERB_POST) : u.ReadsBody ↔ u.BodyReadable := by
  have hnot : u.verb ≠ VERB_GET := by rw [hverb]; decide
  have hsame : u.readHeader.hasContentLength = u.header.hasContentLength := rfl
  rw [ReadsBody, RequestParser.readStageBody, if_neg hnot, if_pos hverb]
  simp only [hsame]
  by_cases hencoding : u.header.getTransferEncoding = chunkedWord
  · have hchunked : u.readHeader.chunked = true := by simp [readHeader, hencoding]
    have hbody := readBody_chunks u.readHeader hchunked (writesChunks_of_eq hencoding)
    simp only [hchunked, Bool.not_true, Bool.and_false, Bool.false_eq_true, if_false, hbody]
    constructor
    · exact fun _ => .inr ⟨hverb, .inl hencoding⟩
    · exact fun _ => ⟨_, _, rfl, rfl, List.nil_append _⟩
  · have hchunked : u.readHeader.chunked = false := by simp [readHeader, hencoding]
    have hcontent : readBody u.readHeader .none (u.bodyText u.blocks) =
        readContent u.readHeader .none (u.bodyText u.blocks) := by
      rw [readBody, hchunked, if_neg Bool.false_ne_true]
    have hfinished := readContent_finished (u := u) u.readHeader (u.bodyText u.blocks)
    have htext : u.bodyText u.blocks = u.body ↔ u.request.writesChunks = false := by
      constructor
      · intro heq
        by_contra hwriter
        have hlt := length_body_lt (Bool.of_not_eq_false hwriter)
        rw [heq] at hlt
        exact absurd hlt (Nat.lt_irrefl _)
      · exact bodyText_of_not_chunks
    have hreadable : u.BodyReadable ↔ ∃ received,
        readContent u.readHeader .none (u.bodyText u.blocks) = .finished received ∧
          received.body = u.body := by
      rw [hfinished]
      constructor
      · rintro (⟨hget, -⟩ | ⟨-, hbad | ⟨hwriter, hhas, hne, hlength⟩⟩)
        · exact absurd hget hnot
        · exact absurd hbad hencoding
        · rw [bodyText_of_not_chunks hwriter]
          exact ⟨rfl, hne, hhas, hlength⟩
      · rintro ⟨heq, hne, hhas, hlength⟩
        rw [heq] at hne hlength
        exact .inr ⟨hverb, .inr ⟨htext.mp heq, hhas, hne, hlength⟩⟩
    rw [hreadable, hchunked, hcontent]
    constructor
    · rintro ⟨parser, left, hsome, hstage, hbody⟩
      split_ifs at hsome
      split at hsome
      · cases hsome
      · cases hsome
        cases hstage
      · cases hsome
        exact ⟨_, by assumption, hbody⟩
    · rintro ⟨received, hfin, hbody⟩
      have hhas : u.header.hasContentLength = true := (hfinished.mp ⟨received, hfin, hbody⟩).2.2.1
      rw [hhas, hfin]
      exact ⟨_, _, rfl, rfl, hbody⟩

theorem readsBody_iff (u : Upload) : u.ReadsBody ↔ u.BodyReadable := by
  rcases u.isVerb with hverb | hverb
  · exact readsBody_get hverb
  · exact readsBody_post hverb

/-! ### The header -/

theorem linesText_fields (u : Upload) : linesText (fieldLines u.fields) ++ crlf = u.headerText := by
  rw [linesText_fieldLines]
  rfl

theorem isLine_fieldLines (u : Upload) : ∀ line ∈ fieldLines u.fields, IsLine line := by
  intro line hline
  obtain ⟨field, hfield, rfl⟩ := List.mem_map.mp hline
  obtain ⟨hname, hvalue⟩ := u.areLines field hfield
  constructor
  · simp
  · intro hmem
    rcases List.mem_append.mp hmem with hmem | hmem
    · exact hname hmem
    · exact hvalue (by simpa using hmem)

/-- Without a field in the header its end is not found, or a POST request is refused. -/
theorem not_recovers_of_no_fields (hpoco : u.ReadsFields poco) (hfields : u.fields = []) :
    ¬ u.Recovers poco u.text := by
  intro h
  obtain ⟨hurl, hversion⟩ := h.requestLine
  obtain ⟨parser, left, hread, hstage, -, -, -, -, hbody⟩ := h
  have hwriter : u.request.writesChunks = false := by
    have hget : u.request.header.get Header.TRANSFER_ENCODING = [] := by
      show (⟨u.fields, false⟩ : Header).get Header.TRANSFER_ENCODING = []
      rw [hfields]
      rfl
    rw [Request.writesChunks, hget]
    decide
  have htext : u.headerText ++ u.bodyText u.blocks = crlf ++ u.body := by
    rw [bodyText_of_not_chunks hwriter, headerText, header, hfields]
    rfl
  have hnone : poco (crlf ++ u.body) = .fields [] := by
    have hpoco := hpoco u.body
    rw [hfields] at hpoco
    rw [← hpoco, header, hfields]
    rfl
  rw [readData_text hurl hversion, htext, RequestParser.readStageHeader] at hread
  cases hparse : Header.empty.parse poco (crlf ++ u.body) with
  | invalid =>
      rw [hparse] at hread
      cases hread
  | incomplete =>
      rw [hparse] at hread
      cases hread
      cases hstage
  | parsed read header =>
      rw [hparse] at hread
      have hheader : header = Header.empty.setAll [] ∧ 4 ≤ (crlf ++ u.body).length := by
        rw [Header.parse] at hparse
        split_ifs at hparse with hlong
        refine ⟨?_, Nat.le_of_not_lt hlong⟩
        split at hparse
        · cases hparse
        · rw [hnone] at hparse
          cases hparse
          rfl
      obtain ⟨rfl, hlong⟩ := hheader
      simp only [RequestParser.readStageBody] at hread
      split_ifs at hread with hget hpost hrefused
      · cases hread
        have hempty : u.body = [] := hbody.symm
        rw [hempty] at hlong
        exact absurd hlong (by decide)
      · exact absurd (by decide) hrefused

/-- With fields in the header and a request line the request is recovered if the fields are not
changed, and the body is read. -/
theorem recovers_iff_of_fields (hpoco : u.ReadsFields poco) (hfields : u.fields ≠ [])
    (hurl : IsToken u.url) (hversion : IsVersion u.version) :
    u.Recovers poco u.text ↔
      (Header.empty.setAll u.fields).headers = u.fields ∧ u.ReadsBody := by
  have hlines : fieldLines u.fields ≠ [] := by simpa [fieldLines] using hfields
  have hparse : Header.empty.parse poco (u.headerText ++ u.bodyText u.blocks) =
      .parsed u.headerText.length (Header.empty.setAll u.fields) := by
    rcases Header.parse_prefix u.isLine_fieldLines hlines
      (by rw [linesText_fields]; exact hpoco) (List.prefix_refl _) .empty with ⟨-, hread⟩ | ⟨hlt, -⟩
    · rw [linesText_fields] at hread
      exact hread
    · rw [List.length_append] at hlt
      omega
  have hread : RequestParser.empty.readData poco u.text =
      (⟨.body, u.verb, u.url, u.version, Header.empty.setAll u.fields, .none⟩ :
        RequestParser).readStageBody (u.bodyText u.blocks) := by
    rw [readData_text hurl hversion, RequestParser.readStageHeader]
    simp only [hparse, List.drop_left]
  have hsame : (Header.empty.setAll u.fields).headers = u.fields →
      Header.empty.setAll u.fields = u.readHeader := by
    intro hheaders
    have hchunked := setAll_chunked .empty u.fields
    rw [Header.getTransferEncoding, Header.get, hheaders] at hchunked
    rw [readHeader]
    cases hset : Header.empty.setAll u.fields with
    | mk headers chunked =>
        rw [hset] at hheaders hchunked
        cases hheaders
        exact congrArg (Header.mk u.fields) hchunked
  rw [Recovers, hread]
  constructor
  · rintro ⟨parser, left, hsome, hstage, -, -, -, hheaders, hbody⟩
    obtain ⟨-, -, -, hheader⟩ := readStageBody_keeps hsome
    rw [hheader] at hheaders
    rw [hsame hheaders] at hsome
    exact ⟨hheaders, parser, left, hsome, hstage, hbody⟩
  · rintro ⟨hheaders, parser, left, hsome, hstage, hbody⟩
    obtain ⟨hverb, hurl', hversion', hheader⟩ := readStageBody_keeps hsome
    rw [hsame hheaders]
    refine ⟨parser, left, hsome, hstage, hverb, hurl', hversion', ?_, hbody⟩
    rw [hheader]
    rfl

theorem recovers_iff (hpoco : u.ReadsFields poco) : u.Recovers poco u.text ↔ u.Readable := by
  constructor
  · intro h
    obtain ⟨hurl, hversion⟩ := h.requestLine
    have hfields : u.fields ≠ [] := fun hnone => not_recovers_of_no_fields hpoco hnone h
    obtain ⟨hheaders, hbody⟩ := (recovers_iff_of_fields hpoco hfields hurl hversion).mp h
    obtain ⟨htrimmed, hdistinct⟩ := (setAll_empty_iff u.fields).mp hheaders
    exact ⟨hurl, hversion, hfields, htrimmed, hdistinct, u.readsBody_iff.mp hbody⟩
  · rintro ⟨hurl, hversion, hfields, htrimmed, hdistinct, hbody⟩
    exact (recovers_iff_of_fields hpoco hfields hurl hversion).mpr
      ⟨(setAll_empty_iff u.fields).mpr ⟨htrimmed, hdistinct⟩, u.readsBody_iff.mpr hbody⟩

/-- Writer and parser agree on a request if its request line is one, its header has fields that
the parser does not change, and its body is sent as the parser takes it. -/
theorem agrees_iff (hpoco : u.ReadsFields poco) : u.Agrees poco ↔ u.Readable := by
  rw [← recovers_iff hpoco]
  have hsame : ∀ capacities r out, u.request.writeAll capacities = some (r, out) →
      r.stage = .finished → out = u.text := by
    intro capacities r out hout hstage
    obtain ⟨r', out', hwritten, hend⟩ := writeAll_request u capacities
    rw [hout] at hwritten
    cases hwritten
    rcases hend with ⟨-, htext⟩ | ⟨hnot, -⟩
    · exact htext
    · exact absurd hstage hnot
  have hends : ∀ capacities, u.blocks.length < capacities.length →
      ∃ r, u.request.writeAll capacities = some (r, u.text) ∧ r.stage = .finished := by
    intro capacities hlength
    obtain ⟨r, out, hwritten, hend⟩ := writeAll_request u capacities
    rcases hend with ⟨hstage, rfl⟩ | ⟨-, hle⟩
    · exact ⟨r, hwritten, hstage⟩
    · omega
  constructor
  · rintro ⟨text, hrecovers, hall, -⟩
    -- The text is what is written with one call more than there are blocks.
    obtain ⟨r, hwritten, hstage⟩ := hends (List.replicate (u.blocks.length + 1) 1) (by simp)
    rw [hall _ _ _ hwritten hstage]
    exact hrecovers
  · exact fun hrecovers => ⟨u.text, hrecovers, hsame, hends⟩

end Upload

end

/-- The Transfer-Encoding of a request with one block. -/
def encodedUpload (encoding : Payload) (h : '\n' ∉ encoding) : Upload where
  verb := VERB_POST
  url := ['/']
  version := versionText 1 1
  fields := [(Header.TRANSFER_ENCODING, encoding)]
  blocks := [['h', 'i']]
  isVerb := .inr rfl
  oneLine := by decide
  areLines := by
    intro field hfield
    rw [List.mem_singleton.mp hfield]
    exact ⟨(by decide : '\n' ∉ Header.TRANSFER_ENCODING), h⟩
  areBlocks := by
    intro block hblock
    rw [List.mem_singleton.mp hblock]
    exact ⟨by decide, by decide⟩

theorem agrees_iff_encodedUpload :
    (encodedUpload chunkedWord (by decide)).Agrees plainRead ↔
      (encodedUpload chunkedWord (by decide)).Readable :=
  Upload.agrees_iff fun _ => rfl

/-- With a capital letter in "chunked" the body is written in chunks, and the request is refused. -/
theorem not_agrees_capital : ¬ ∀ (u : Upload) (poco : Payload → PocoRead),
    u.ReadsFields poco → u.Agrees poco := by
  intro h
  obtain ⟨text, ⟨parser, left, hread, -⟩, hall, -⟩ :=
    h (encodedUpload ('C' :: chunkedWord.tail) (by decide)) plainRead fun _ => rfl
  have hrefused : ((encodedUpload ('C' :: chunkedWord.tail) (by decide)).request.writeAll
      [blockSize]).map (fun result => (result.1.stage, RequestParser.empty.readData plainRead result.2)) =
      some (.finished, none) := by decide +kernel
  obtain ⟨⟨r, out⟩, hwritten, hresult⟩ := Option.map_eq_some_iff.mp hrefused
  obtain ⟨hstage, hnone⟩ := Prod.mk.inj hresult
  rw [hall _ _ _ hwritten hstage, hread] at hnone
  cases hnone

end CoolOnline.Http
