import CoolOnline.Net.HttpRequest
import CoolOnline.Net.HttpResponse

/-! # What is accepted as chunks

The chunked branches of `Response::readData` and `RequestParser::readData`: what is written of any
bytes that come, and where they are taken for the end of the body.
-/

namespace CoolOnline.Http

open HexUtil Chunked

/-- What `_onBodyWriteCb` is given by the loop over the chunks, one call after the other. -/
def writtenChunks : Nat → Payload → List Payload
  | 0, _ => []
  | turns + 1, p =>
      if p = [] then []
      else
        let off := findLineBreak p
        if off = p.length then []
        else
          match readChunkLen 0 p with
          | none => []
          | some chunkLen =>
              if 0 < chunkLen then
                let data := p.drop (off + 1)
                if data.length < chunkLen + 2 then []
                else
                  data.take chunkLen :: writtenChunks turns (skipCRLF (data.drop chunkLen))
              else []

/-- CRLF, and what is skipped behind it. -/
def Separator (sep : Payload) : Prop :=
  ∃ blanks, sep = crlf ++ blanks ∧ ∀ c ∈ blanks, (c == '\r' || c == '\n') = true

/-- Complete chunks, with what they hold: each has the announced length and is followed by CRLF. -/
inductive ChunkFrames : List Payload → Payload → Prop
  | nil : ChunkFrames [] []
  | cons {line payload sep text : Payload} {payloads : List Payload}
      (hline : ChunkLine line payload.length) (hne : payload ≠ []) (hsep : Separator sep)
      (hrest : ChunkFrames payloads text) :
      ChunkFrames (payload :: payloads) (line ++ (payload ++ (sep ++ text)))

/-- A read of the body, finished or not, with what has been received and what is left, or it has
failed. What it has written are complete chunks. It is finished by a line that says that there are
no more, and waits for what is behind the chunks. -/
def FramedAs (payloads : List Payload) (received : Received) (p : Payload)
    (outcome : Option (Bool × Received × Payload)) : Prop :=
  ∃ text left, p = text ++ left ∧ ChunkFrames payloads text ∧
    match outcome with
    | none => True
    | some (true, r, _) =>
        r = received.write payloads.flatten ∧ ∃ last rest, left = last ++ rest ∧ ChunkLine last 0
    | some (false, r, q) => r = received.write payloads.flatten ∧ q = left

/-- What is given to `_onBodyWriteCb`, and how the read ends, are as they are framed. -/
def ReadsChunks (received : Received) (p : Payload) (outcome : Option (Bool × Received × Payload)) :
    Prop :=
  FramedAs (writtenChunks (p.length + 1) p) received p outcome

/-- `Response::readData` where a body is read. -/
def Response.bodyOutcome (r : Response) (p : Payload) : Option (Bool × Received × Payload) :=
  (r.readStageBody p).map fun (r, q) => (r.parserStage == .finished, r.received, q)

/-- `RequestParser::readData` where a body is read. -/
def RequestParser.bodyOutcome (r : RequestParser) (p : Payload) :
    Option (Bool × Received × Payload) :=
  (r.readStageBody p).map fun (r, q) => (r.stage == .finished, r.received, q)

/-! ## Where the loop gets to -/

/-- A chunk that can be read now, and what is behind its payload. -/
structure ChunkAt (p payload behind : Payload) : Prop where
  exists_line : ∃ line, p = line ++ (payload ++ behind) ∧ ChunkLine line payload.length
  ne_nil : payload ≠ []
  fits : payload.length < maxChunk
  complete : 2 ≤ behind.length

/-- What is behind any chunks, however they are separated. -/
inductive Reaches : Payload → Payload → Prop
  | refl (p : Payload) : Reaches p p
  | chunk {p payload behind q : Payload} (hchunk : ChunkAt p payload behind)
      (hrest : Reaches (skipCRLF behind) q) : Reaches p q

/-- A line that has come begins with a digit, and a chunk that can be read is followed by CRLF. -/
structure WellFramed (p : Payload) : Prop where
  digit : '\n' ∈ p → ∃ c ∈ p.head?, isHexDigit c = true
  crlf : ∀ payload behind, ChunkAt p payload behind → crlf <+: behind

section

variable {p q line payload behind text : Payload} {payloads : List Payload} {n m turns : Nat}
  {r : Received}

theorem ChunkLine.value (h : ChunkLine line n) : n = hexValue (line.takeWhile isHexDigit) := by
  rcases h with ⟨digits, more, rfl, -, hdigits, hmore, -, rfl⟩
  have hrest : (more ++ ['\n']).takeWhile isHexDigit = [] := by
    cases more with
    | nil => rfl
    | cons c more =>
        rw [List.cons_append, List.takeWhile_cons_of_neg]
        rw [hmore c rfl]
        exact Bool.false_ne_true
  rw [List.takeWhile_append_of_pos hdigits, hrest, List.append_nil]

theorem unambiguous_chunkLine : Unambiguous ChunkLine := by
  intro line line' n n' rest rest' h h' heq
  have hlength := (h.findLineBreak_append rest).1
  have hlength' := (h'.findLineBreak_append rest').1
  rw [heq, hlength'] at hlength
  have hline : line = line' := (List.append_inj heq hlength.symm).1
  refine ⟨hline, ?_⟩
  rw [h.value, h'.value, hline]

/-- A line that is a size begins with a digit. -/
theorem ChunkLine.head (h : ChunkLine line n) (rest : Payload) :
    ∃ c ∈ (line ++ rest).head?, isHexDigit c = true := by
  rcases h with ⟨digits, more, rfl, hne, hdigits, -⟩
  rcases List.exists_cons_of_ne_nil hne with ⟨c, digits, rfl⟩
  exact ⟨c, rfl, hdigits c List.mem_cons_self⟩

theorem hexDigitFromChar_lt {c : Char} {digit : Nat} (h : hexDigitFromChar c = some digit) :
    digit < 16 := by
  have hchar (a b : Char) (hab : a ≤ b) : a.toNat ≤ b.toNat := hab
  rw [hexDigitFromChar] at h
  split at h
  case isTrue hc =>
    have hle := hchar c '9' hc.2
    have heq := Option.some.inj h
    have hnine : '9'.toNat = 57 := rfl
    have hzero : '0'.toNat = 48 := rfl
    omega
  · split at h
    case isTrue hc =>
      have hle := hchar c 'f' hc.2
      have heq := Option.some.inj h
      have hf : 'f'.toNat = 102 := rfl
      have ha : 'a'.toNat = 97 := rfl
      omega
    · split at h
      case isTrue hc =>
        have hle := hchar c 'F' hc.2
        have heq := Option.some.inj h
        have hf : 'F'.toNat = 70 := rfl
        have ha : 'A'.toNat = 65 := rfl
        omega
      · cases h

/-- The length that is read is the one of the digits, and it fits. -/
theorem readChunkLen_eq (h : readChunkLen n p = some m) (hn : n < maxChunk) :
    m = (p.takeWhile isHexDigit).foldl (fun n c => n * 16 + (hexDigitFromChar c).getD 0) n ∧
      m < maxChunk := by
  induction p generalizing n with
  | nil =>
      cases h
      exact ⟨rfl, hn⟩
  | cons c p ih =>
      rw [readChunkLen.eq_def] at h
      cases hdigit : hexDigitFromChar c with
      | none =>
          simp only [hdigit, Option.some.injEq] at h
          rw [List.takeWhile_cons_of_neg (by simp [isHexDigit, hdigit])]
          exact ⟨h.symm, h ▸ hn⟩
      | some digit =>
          simp only [hdigit] at h
          split at h
          · cases h
          case isFalse hsmall =>
            have hlt := hexDigitFromChar_lt hdigit
            rw [List.takeWhile_cons_of_pos (by simp [isHexDigit, hdigit]), List.foldl_cons, hdigit,
              Option.getD_some]
            apply ih h
            rw [maxChunk]
            omega

/-- The line that has come to its end, when it begins with a digit. -/
theorem exists_chunkLine (hline : '\n' ∈ p) (hdigit : ∃ c ∈ p.head?, isHexDigit c = true)
    (hread : readChunkLen 0 p = some n) :
    ∃ line rest, p = line ++ rest ∧ ChunkLine line n ∧ n < maxChunk := by
  rcases List.eq_append_cons_of_mem hline with ⟨before, rest, rfl, hbefore⟩
  have hvalue := readChunkLen_eq hread (by decide)
  have hdigits : (before ++ '\n' :: rest).takeWhile isHexDigit = before.takeWhile isHexDigit := by
    rw [List.takeWhile_append]
    split
    case isTrue hall =>
      rw [List.takeWhile_cons_of_neg (by decide), List.append_nil]
      exact ((List.takeWhile_prefix _).eq_of_length hall).symm
    case isFalse => rfl
  have hline : ChunkLine (before ++ ['\n']) n := by
    refine ⟨before.takeWhile isHexDigit, before.dropWhile isHexDigit, ?_, ?_, ?_, ?_, ?_, ?_⟩
    · rw [← List.append_assoc, List.takeWhile_append_dropWhile]
    · intro hnil
      rcases hdigit with ⟨c, hc, hhex⟩
      cases before with
      | nil =>
          cases hc
          exact absurd hhex (by decide)
      | cons d before =>
          cases hc
          rw [List.takeWhile_cons_of_pos hhex] at hnil
          cases hnil
    · exact fun c hc => List.mem_takeWhile_imp hc
    · intro c hc
      have hhead := List.head?_dropWhile_not isHexDigit before
      rw [Option.mem_def.mp hc] at hhead
      simpa using hhead
    · exact fun hmem => hbefore ((List.dropWhile_suffix _).mem hmem)
    · rw [hexValue, ← hdigits]
      exact hvalue.1.symm
  exact ⟨before ++ ['\n'], rest, by simp, hline, hvalue.2⟩

/-- What one turn of the loop does. -/
inductive Turn (p : Payload) (turns : Nat) (r : Received) : List Payload → BodyRead → Prop
  | waiting (hdigit : '\n' ∈ p → ∃ c ∈ p.head?, isHexDigit c = true)
      (hnone : ∀ payload behind, ¬ ChunkAt p payload behind) : Turn p turns r [] (.waiting r p)
  | failed (hdigit : ∃ c ∈ p.head?, isHexDigit c = true)
      (hnone : ∀ payload behind, ¬ ChunkAt p payload behind) : Turn p turns r [] .failed
  | last {last rest : Payload} (heq : p = last ++ rest) (hlast : ChunkLine last 0) :
      Turn p turns r [] (.finished r)
  | noDigit (hline : '\n' ∈ p) (hdigit : ¬ ∃ c ∈ p.head?, isHexDigit c = true) :
      Turn p turns r [] (.finished r)
  | chunk {payload behind : Payload} (hchunk : ChunkAt p payload behind) :
      Turn p turns r (payload :: writtenChunks turns (skipCRLF behind))
        (readChunks turns (r.write payload) (skipCRLF behind))

theorem ChunkAt.head {payload behind : Payload} (h : ChunkAt p payload behind) :
    ∃ c ∈ p.head?, isHexDigit c = true := by
  rcases h.exists_line with ⟨line, rfl, hline⟩
  exact hline.head _

theorem ChunkAt.mem {payload behind : Payload} (h : ChunkAt p payload behind) : '\n' ∈ p := by
  rcases h.exists_line with ⟨line, rfl, hline⟩
  rcases hline.eq_append with ⟨before, rfl, -⟩
  simp

theorem ChunkAt.readChunkLen {payload behind : Payload} (h : ChunkAt p payload behind) :
    readChunkLen 0 p = some payload.length := by
  rcases h.exists_line with ⟨line, rfl, hline⟩
  exact hline.readChunkLen_append h.fits _

theorem readChunkLen_of_noDigit (hdigit : ¬ ∃ c ∈ p.head?, isHexDigit c = true) :
    readChunkLen n p = some n := by
  cases p with
  | nil => rfl
  | cons c p =>
      have hc : hexDigitFromChar c = none := by
        have hnot : isHexDigit c ≠ true := fun hc => hdigit ⟨c, rfl, hc⟩
        simpa [isHexDigit] using hnot
      rw [Http.readChunkLen.eq_def]
      simp only [hc]

/-- The line has come, and it is a size. -/
theorem turn_of_chunkLine (h : ChunkLine line n) (hn : n < maxChunk) (q : Payload) :
    Turn (line ++ q) turns r (writtenChunks (turns + 1) (line ++ q))
      (readChunks (turns + 1) r (line ++ q)) := by
  rcases h.findLineBreak_append q with ⟨hoff, hfound⟩
  have hread := h.readChunkLen_append hn q
  have hne : line ++ q ≠ [] := by simp [h.ne_nil]
  rw [readChunks, writtenChunks, if_neg hne, if_neg hne]
  simp only [hfound, if_false, hread, hoff, List.drop_left]
  cases n with
  | zero =>
      simp only [Nat.lt_irrefl, if_false]
      exact .last rfl h
  | succ n =>
      simp only [Nat.succ_pos, if_true]
      split
      case isTrue hshort =>
        apply Turn.waiting fun _ => h.head q
        intro payload behind hchunk
        rcases hchunk.exists_line with ⟨line', heq, hline'⟩
        have hsame := unambiguous_chunkLine _ _ _ _ _ _ h hline' heq
        rw [hsame.1] at heq
        have hq := List.append_cancel_left heq
        have hcomplete := hchunk.complete
        rw [hq, List.length_append] at hshort
        omega
      case isFalse hlong =>
        have htake : (q.take (n + 1)).length = n + 1 := by
          rw [List.length_take]
          omega
        apply Turn.chunk
        refine ⟨⟨line, ?_, ?_⟩, ?_, ?_, ?_⟩
        · rw [List.take_append_drop]
        · rw [htake]
          exact h
        · exact List.ne_nil_of_length_eq_add_one htake
        · rw [htake]
          exact hn
        · rw [List.length_drop]
          omega

theorem turn (p : Payload) (turns : Nat) (r : Received) :
    Turn p turns r (writtenChunks (turns + 1) p) (readChunks (turns + 1) r p) := by
  by_cases hline : '\n' ∈ p
  case neg =>
    have hoff := findLineBreak_of_not_mem hline
    rw [readChunks_of_lineBreak hoff, writtenChunks, if_pos hoff]
    have hnothing : (if p = [] then [] else ([] : List Payload)) = [] := ite_self _
    rw [hnothing]
    exact .waiting (fun hmem => absurd hmem hline) fun _ _ hchunk => hline hchunk.mem
  case pos =>
    have hne : p ≠ [] := List.ne_nil_of_mem hline
    by_cases hdigit : ∃ c ∈ p.head?, isHexDigit c = true
    case neg =>
      have hoff : findLineBreak p ≠ p.length :=
        Nat.ne_of_lt (List.findIdx_lt_length_of_exists ⟨'\n', hline, rfl⟩)
      rw [readChunks, writtenChunks, if_neg hne, if_neg hne]
      simp only [hoff, if_false, readChunkLen_of_noDigit hdigit, Nat.lt_irrefl]
      exact .noDigit hline hdigit
    case pos =>
      cases hread : readChunkLen 0 p with
      | none =>
          have hoff : findLineBreak p ≠ p.length :=
            Nat.ne_of_lt (List.findIdx_lt_length_of_exists ⟨'\n', hline, rfl⟩)
          rw [readChunks, writtenChunks, if_neg hne, if_neg hne]
          simp only [hoff, if_false, hread]
          apply Turn.failed hdigit
          intro payload behind hchunk
          rw [hchunk.readChunkLen] at hread
          cases hread
      | some n =>
          rcases exists_chunkLine hline hdigit hread with ⟨line, rest, rfl, hsize, hn⟩
          exact turn_of_chunkLine hsize hn rest

/-- Finished or not, with what has been received and what is left. -/
def BodyRead.outcome : BodyRead → Option (Bool × Received × Payload)
  | .waiting r q => some (false, r, q)
  | .finished r => some (true, r, [])
  | .failed => none

theorem skipCRLF_append_of_head (hsep : ∀ c ∈ text, (c == '\r' || c == '\n') = true)
    (hdigit : ∃ c ∈ p.head?, isHexDigit c = true) : skipCRLF (text ++ p) = p := by
  rcases hdigit with ⟨c, hc, hhex⟩
  cases p with
  | nil => cases hc
  | cons d p =>
      cases hc
      have hnot : ¬ (c == '\r' || c == '\n') = true := by
        rw [Bool.or_eq_true, beq_iff_eq, beq_iff_eq]
        rintro (rfl | rfl) <;> exact absurd hhex (by decide)
      rw [skipCRLF, List.dropWhile_append_of_pos hsep]
      exact List.dropWhile_cons_of_neg hnot

theorem crlf_isBlank : ∀ c ∈ crlf, (c == '\r' || c == '\n') = true := by simp [crlf]

/-- What is skipped is CR and LF. -/
theorem exists_skipCRLF (p : Payload) :
    ∃ blanks, p = blanks ++ skipCRLF p ∧ ∀ c ∈ blanks, (c == '\r' || c == '\n') = true :=
  ⟨p.takeWhile fun c => c == '\r' || c == '\n', (List.takeWhile_append_dropWhile).symm,
    fun _ hc => List.mem_takeWhile_imp (p := fun c => c == '\r' || c == '\n') hc⟩

/-- What is skipped behind a payload, where CRLF follows it. -/
theorem exists_separator (hcrlf : crlf <+: p) : ∃ sep, p = sep ++ skipCRLF p ∧ Separator sep := by
  rcases hcrlf with ⟨tail, rfl⟩
  rcases exists_skipCRLF tail with ⟨blanks, htail, hblanks⟩
  have hskip : skipCRLF (crlf ++ tail) = skipCRLF tail := List.dropWhile_append_of_pos crlf_isBlank
  refine ⟨crlf ++ blanks, ?_, blanks, rfl, hblanks⟩
  rw [hskip, List.append_assoc, ← htail]

theorem ChunkFrames.head (h : ChunkFrames payloads text) (hne : payloads ≠ []) (rest : Payload) :
    ∃ c ∈ (text ++ rest).head?, isHexDigit c = true := by
  cases h with
  | nil => exact absurd rfl hne
  | cons hline =>
      rw [List.append_assoc]
      exact hline.head _

theorem ChunkFrames.eq_nil (h : ChunkFrames [] text) : text = [] := by
  cases h
  rfl

/-- What is behind one chunk is taken to begin with CRLF, and the rest is framed as well. -/
theorem FramedAs.after {payload behind : Payload} {result : BodyRead}
    (hchunk : ChunkAt p payload behind)
    (h : FramedAs (payload :: payloads) r p result.outcome)
    (hrest : payloads = [] → ∀ r' q, result = .waiting r' q → q = skipCRLF behind) :
    crlf <+: behind ∧ FramedAs payloads (r.write payload) (skipCRLF behind) result.outcome := by
  rcases h with ⟨text, left, heq, hframes, hend⟩
  cases hframes with
  | @cons line' _ sep text' _ hline' hne hsep hframes =>
    rcases hsep with ⟨blanks, rfl, hblanks⟩
    rcases hchunk.exists_line with ⟨line, hp, hline⟩
    have hsplit : line ++ (payload ++ behind) =
        line' ++ (payload ++ (crlf ++ blanks ++ (text' ++ left))) := by
      rw [← hp, heq]
      simp only [List.append_assoc]
    have hsame := unambiguous_chunkLine _ _ _ _ _ _ hline hline' hsplit
    rw [hsame.1] at hsplit
    have hbehind := List.append_cancel_left (List.append_cancel_left hsplit)
    have hcrlf : crlf <+: behind := ⟨blanks ++ (text' ++ left), by rw [hbehind, List.append_assoc]⟩
    apply And.intro hcrlf
    have hsep : ∀ c ∈ crlf ++ blanks, (c == '\r' || c == '\n') = true := by
      intro c hc
      rcases List.mem_append.mp hc with hc | hc
      · exact crlf_isBlank c hc
      · exact hblanks c hc
    by_cases hnil : payloads = []
    case neg =>
      have hskip : skipCRLF behind = text' ++ left := by
        rw [hbehind]
        exact skipCRLF_append_of_head hsep (hframes.head hnil left)
      refine ⟨text', left, hskip, hframes, ?_⟩
      cases result with
      | failed => trivial
      | waiting r' q => simpa [BodyRead.outcome] using hend
      | finished r' => simpa [BodyRead.outcome] using hend
    case pos =>
      have hrest := hrest hnil
      rw [hnil] at hframes hend ⊢
      have htext := hframes.eq_nil
      refine ⟨[], skipCRLF behind, rfl, .nil, ?_⟩
      cases result with
      | failed => trivial
      | waiting r' q => exact ⟨by simpa using hend.1, hrest r' q rfl⟩
      | finished r' =>
          rcases hend with ⟨hr, last, rest, hleft, hlast⟩
          have hskip : skipCRLF behind = last ++ rest := by
            rw [hbehind, htext, List.nil_append, hleft]
            exact skipCRLF_append_of_head hsep (hlast.head rest)
          exact ⟨by simpa using hr, last, rest, hskip, hlast⟩

theorem eq_of_waiting {r' : Received} (hnil : writtenChunks turns p = [])
    (hwait : readChunks turns r p = .waiting r' q) : q = p := by
  cases turns with
  | zero =>
      cases hwait
      rfl
  | succ turns =>
      have hturn := turn p turns r
      rw [hnil, hwait] at hturn
      cases hturn
      rfl

theorem ChunkAt.unique {payload payload' behind behind' : Payload} (h : ChunkAt p payload behind)
    (h' : ChunkAt p payload' behind') : payload = payload' ∧ behind = behind' := by
  rcases h.exists_line with ⟨line, rfl, hline⟩
  rcases h'.exists_line with ⟨line', heq, hline'⟩
  have hsame := unambiguous_chunkLine _ _ _ _ _ _ hline hline' heq
  rw [hsame.1] at heq
  exact List.append_inj (List.append_cancel_left heq) hsame.2

theorem not_chunkAt_of_last {last rest payload behind : Payload} (hlast : ChunkLine last 0) :
    ¬ ChunkAt (last ++ rest) payload behind := by
  intro hchunk
  rcases hchunk.exists_line with ⟨line, heq, hline⟩
  have hsame := unambiguous_chunkLine _ _ _ _ _ _ hlast hline heq
  exact hchunk.ne_nil (List.eq_nil_of_length_eq_zero hsame.2.symm)

/-- Every chunk takes something. -/
theorem ChunkAt.length_lt {payload behind : Payload} (h : ChunkAt p payload behind) :
    (skipCRLF behind).length < p.length := by
  rcases h.exists_line with ⟨line, rfl, hline⟩
  have hskip : (behind.dropWhile fun c => c == '\r' || c == '\n').length ≤ behind.length :=
    (List.dropWhile_suffix _).length_le
  have hpos := List.length_pos_iff.mpr hline.ne_nil
  rw [List.length_append, List.length_append, skipCRLF]
  omega

/-- What is read where a chunk can be. -/
theorem turn_of_chunkAt {payload behind : Payload} (h : ChunkAt p payload behind) (turns : Nat)
    (r : Received) :
    writtenChunks (turns + 1) p = payload :: writtenChunks turns (skipCRLF behind) ∧
      readChunks (turns + 1) r p = readChunks turns (r.write payload) (skipCRLF behind) := by
  have hturn := turn p turns r
  generalize writtenChunks (turns + 1) p = payloads at hturn ⊢
  generalize readChunks (turns + 1) r p = result at hturn ⊢
  cases hturn with
  | waiting _ hnone => exact absurd h (hnone _ _)
  | failed _ hnone => exact absurd h (hnone _ _)
  | last heq hlast =>
      rw [heq] at h
      exact absurd h (not_chunkAt_of_last hlast)
  | noDigit _ hdigit => exact absurd h.head hdigit
  | chunk hchunk =>
      rcases hchunk.unique h with ⟨rfl, rfl⟩
      exact ⟨rfl, rfl⟩

theorem FramedAs.of_chunkAt {payload behind : Payload} (hchunk : ChunkAt p payload behind)
    (h : FramedAs (writtenChunks (turns + 1) p) r p (readChunks (turns + 1) r p).outcome) :
    crlf <+: behind ∧ FramedAs (writtenChunks turns (skipCRLF behind)) (r.write payload)
      (skipCRLF behind) (readChunks turns (r.write payload) (skipCRLF behind)).outcome := by
  rcases turn_of_chunkAt hchunk turns r with ⟨hwritten, hread⟩
  rw [hwritten, hread] at h
  exact h.after hchunk fun hnil r' q hwait => eq_of_waiting hnil hwait

/-- Where the read gets to, what comes is framed as it should be. -/
theorem wellFramed_of_framedAs (hreach : Reaches p q) (hturns : p.length < turns)
    (h : FramedAs (writtenChunks turns p) r p (readChunks turns r p).outcome) : WellFramed q := by
  induction hreach generalizing turns r with
  | refl p =>
      cases turns with
      | zero => exact absurd hturns (Nat.not_lt_zero _)
      | succ turns =>
          apply WellFramed.mk
          case crlf => exact fun payload behind hchunk => (h.of_chunkAt hchunk).1
          have hturn := turn p turns r
          generalize writtenChunks (turns + 1) p = payloads at h hturn
          generalize readChunks (turns + 1) r p = result at h hturn
          intro hline
          cases hturn with
          | waiting hdigit => exact hdigit hline
          | failed hdigit => exact hdigit
          | last heq hlast =>
              rw [heq]
              exact hlast.head _
          | chunk hchunk => exact hchunk.head
          | noDigit =>
              -- The line that it finishes with would be a size.
              rcases h with ⟨text, left, rfl, hframes, -, last, rest, rfl, hlast⟩
              rw [hframes.eq_nil]
              exact hlast.head rest
  | chunk hchunk hrest ih =>
      cases turns with
      | zero => exact absurd hturns (Nat.not_lt_zero _)
      | succ turns =>
          have hshorter := hchunk.length_lt
          exact ih (by omega) (h.of_chunkAt hchunk).2

/-- As long as what comes is framed as it should be, what is read is as it is framed. -/
theorem framedAs_of_wellFramed (hturns : p.length < turns)
    (h : ∀ q, Reaches p q → WellFramed q) :
    FramedAs (writtenChunks turns p) r p (readChunks turns r p).outcome := by
  induction turns generalizing p r with
  | zero => exact absurd hturns (Nat.not_lt_zero _)
  | succ turns ih =>
      have hturn := turn p turns r
      have hwell := h p (.refl p)
      generalize writtenChunks (turns + 1) p = payloads at hturn ⊢
      generalize readChunks (turns + 1) r p = result at hturn ⊢
      cases hturn with
      | waiting => exact ⟨[], p, rfl, .nil, (write_nil r).symm, rfl⟩
      | failed => exact ⟨[], p, rfl, .nil, trivial⟩
      | @last last rest heq hlast =>
          exact ⟨[], p, rfl, .nil, (write_nil r).symm, last, rest, heq, hlast⟩
      | noDigit hline hdigit => exact absurd (hwell.digit hline) hdigit
      | @chunk payload behind hchunk =>
          have hshorter := hchunk.length_lt
          have hrest := ih (r := r.write payload) (p := skipCRLF behind) (by omega)
            fun q hq => h q (.chunk hchunk hq)
          rcases hrest with ⟨text, left, heq, hframes, hend⟩
          rcases exists_separator (hwell.crlf payload behind hchunk) with ⟨sep, hbehind, hsep⟩
          rcases hchunk.exists_line with ⟨line, hp, hline⟩
          refine ⟨line ++ (payload ++ (sep ++ text)), left, ?_,
            .cons hline hchunk.ne_nil hsep hframes, ?_⟩
          · rw [hp, List.append_assoc, List.append_assoc, List.append_assoc, ← heq, ← hbehind]
          · cases hresult : readChunks turns (r.write payload) (skipCRLF behind) with
            | failed => trivial
            | waiting r' q =>
                rw [hresult] at hend
                simpa [BodyRead.outcome] using hend
            | finished r' =>
                rw [hresult] at hend
                simpa [BodyRead.outcome] using hend

theorem readsChunks_iff :
    ReadsChunks r p (readChunks (p.length + 1) r p).outcome ↔
      ∀ q, Reaches p q → WellFramed q := by
  constructor
  · exact fun h q hreach => wellFramed_of_framedAs hreach (Nat.lt_succ_self _) h
  · exact framedAs_of_wellFramed (Nat.lt_succ_self _)

theorem readChunkLen_add_le (h : readChunkLen 0 p = some n) : n + 2 ≤ int64Max := by
  have hlt := (readChunkLen_eq h (by decide)).2
  have hmax : maxChunk + 2 ≤ int64Max := by decide
  omega

end

theorem readBody_of_chunked {header : Header} (hchunked : header.chunked = true) (r : Received)
    (p : Payload) : readBody header r p = readChunks (p.length + 1) r p :=
  if_pos hchunked

theorem Response.bodyOutcome_eq {r : Response} (hstage : r.parserStage = .body)
    (hchunked : r.header.chunked = true) (p : Payload) :
    r.bodyOutcome p = (readChunks (p.length + 1) r.received p).outcome := by
  rw [bodyOutcome, readStageBody]
  by_cases hempty : p = []
  case pos =>
    rw [if_neg fun h => h.2 hempty, complete, if_neg (by rw [hstage]; decide), hempty]
    simp [readChunks_nil, BodyRead.outcome, hstage]
  case neg =>
    rw [if_pos ⟨hstage, hempty⟩, readBody_of_chunked hchunked]
    cases readChunks (p.length + 1) r.received p with
    | failed => rfl
    | waiting r' q => simp [BodyRead.outcome, hstage]
    | finished r' => rfl

theorem RequestParser.bodyOutcome_eq {r : RequestParser} (hverb : r.verb = VERB_POST)
    (hstage : r.stage = .body) (hchunked : r.header.chunked = true) (p : Payload) :
    r.bodyOutcome p = (readChunks (p.length + 1) r.received p).outcome := by
  have hallowed : ¬ (!r.header.hasContentLength && !r.header.chunked) = true := by simp [hchunked]
  rw [bodyOutcome, readStageBody, if_neg (by rw [hverb]; decide), if_pos hverb, if_neg hallowed,
    readBody_of_chunked hchunked]
  cases readChunks (p.length + 1) r.received p with
  | failed => rfl
  | waiting r' q => simp [BodyRead.outcome, hstage]
  | finished r' => rfl

/-- Chunks are read as they are framed, by both parsers, if and only if the line of every chunk that
is reached begins with a digit, and CRLF is behind every payload. No length that is read is too
large for what is calculated with it. -/
theorem readsChunks_iff_wellFramed (p : Payload) :
    (∀ r : Response, r.parserStage = .body → r.header.chunked = true →
        (ReadsChunks r.received p (r.bodyOutcome p) ↔ ∀ q, Reaches p q → WellFramed q)) ∧
      (∀ r : RequestParser, r.verb = VERB_POST → r.stage = .body → r.header.chunked = true →
        (ReadsChunks r.received p (r.bodyOutcome p) ↔ ∀ q, Reaches p q → WellFramed q)) ∧
      ∀ n, readChunkLen 0 p = some n → n + 2 ≤ int64Max := by
  refine ⟨?_, ?_, fun n => readChunkLen_add_le⟩
  · intro r hstage hchunked
    rw [r.bodyOutcome_eq hstage hchunked]
    exact readsChunks_iff
  · intro r hverb hstage hchunked
    rw [r.bodyOutcome_eq hverb hstage hchunked]
    exact readsChunks_iff

/-- A response whose body is read in chunks. -/
def Response.inChunks : Response :=
  ⟨.empty, .incomplete, .body, ⟨[⟨Header.TRANSFER_ENCODING, "chunked".toList⟩], true⟩, .none⟩

/-- A line that is no size at all is taken for the last one. -/
theorem not_readsChunks_noDigit :
    Response.inChunks.bodyOutcome "xyz\r\n".toList = some (true, .none, []) ∧
      ¬ ReadsChunks Response.inChunks.received "xyz\r\n".toList
        (Response.inChunks.bodyOutcome "xyz\r\n".toList) := by
  have hfinished : Response.inChunks.bodyOutcome "xyz\r\n".toList = some (true, .none, []) := by
    decide
  apply And.intro hfinished
  rw [hfinished]
  rintro ⟨text, left, heq, hframes, -, last, rest, rfl, hlast⟩
  have htext : text = [] := hframes.eq_nil
  rw [htext, List.nil_append] at heq
  rcases hlast.head rest with ⟨c, hc, hhex⟩
  rw [← heq] at hc
  cases hc
  exact absurd hhex (by decide)

theorem readsChunks_iff_wellFramed_inChunks :
    ReadsChunks Response.inChunks.received "3\r\nabc\r\n0\r\n".toList
        (Response.inChunks.bodyOutcome "3\r\nabc\r\n0\r\n".toList) ↔
      ∀ q, Reaches "3\r\nabc\r\n0\r\n".toList q → WellFramed q :=
  (readsChunks_iff_wellFramed "3\r\nabc\r\n0\r\n".toList).1 Response.inChunks rfl rfl

end CoolOnline.Http
