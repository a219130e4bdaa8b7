import CoolOnline.Library.Chunked
import CoolOnline.Library.Feeding
import CoolOnline.Net.HttpHeader

/-! # HTTP bodies

The part of `Response::readData` and `RequestParser::readData` that reads a body into memory, which
is the same in both: chunk by chunk, or all that there is until it is as long as the header says.
-/

namespace CoolOnline.Http

open HexUtil Chunked

/-- `_body` and `_recvBodySize`. -/
structure Received where
  body : Payload
  recvBodySize : Nat
deriving DecidableEq, Repr

namespace Received

def none : Received := ⟨[], 0⟩

/-- `_onBodyWriteCb` stores all it is given. -/
def write (r : Received) (data : Payload) : Received :=
  ⟨r.body ++ data, r.recvBodySize + data.length⟩

end Received

/-- `std::numeric_limits<int64_t>::max()`. -/
def int64Max : Nat := 2 ^ 63 - 1

/-- The length of a chunk after some of its digits; there is no result when it would not fit. -/
def readChunkLen : Nat → Payload → Option Nat
  | chunkLen, [] => some chunkLen
  | chunkLen, c :: rest =>
      match hexDigitFromChar c with
      | none => some chunkLen
      | some digit =>
          if int64Max / 16 ≤ chunkLen then none else readChunkLen (chunkLen * 16 + digit) rest

/-- How the reading of a body ends: with what has not been consumed, with everything, or -1. -/
inductive BodyRead
  | waiting (received : Received) (available : Payload)
  | finished (received : Received)
  | failed
deriving DecidableEq, Repr

/-- The loop over the chunks. -/
def readChunks : Nat → Received → Payload → BodyRead
  | 0, r, p => .waiting r p
  | turns + 1, r, p =>
      if p = [] then .waiting r p
      else
        let off := findLineBreak p
        if off = p.length then .waiting r p
        else
          match readChunkLen 0 p with
          | none => .failed
          | some chunkLen =>
              if 0 < chunkLen then
                let data := p.drop (off + 1)
                if data.length < chunkLen + 2 then .waiting r p
                else
                  readChunks turns (r.write (data.take chunkLen)) (skipCRLF (data.drop chunkLen))
              else .finished r -- Consume all.

/-- All that is available, which is enough or not. -/
def readContent (header : Header) (r : Received) (p : Payload) : BodyRead :=
  if p = [] then .waiting r p
  else
    let r := r.write p
    if header.hasContentLength ∧ header.getContentLength ≤ r.recvBodySize then .finished r
    else .waiting r []

/-- Every chunk takes one element at least. -/
def readBody (header : Header) (r : Received) (p : Payload) : BodyRead :=
  if header.chunked then readChunks (p.length + 1) r p else readContent header r p

/-! ## Chunks -/

section

/-- Hexadecimal digits, and anything that ends in a line break. -/
def ChunkLine (line : Payload) (n : Nat) : Prop :=
  ∃ digits more, line = digits ++ (more ++ ['\n']) ∧ digits ≠ [] ∧
    (∀ c ∈ digits, isHexDigit c = true) ∧ (∀ c ∈ more.head?, isHexDigit c = false) ∧
    '\n' ∉ more ∧ hexValue digits = n

variable {line text chunks last rest p q : Payload} {payloads : List Payload} {n m : Nat}
  {r : Received}

theorem isHexDigit_lineBreak : isHexDigit '\n' = false := by decide

theorem ChunkLine.ne_nil (h : ChunkLine line n) : line ≠ [] := by
  obtain ⟨digits, more, rfl, hne, -⟩ := h
  simp [hne]

/-- The line break is the last element of a line. -/
theorem ChunkLine.eq_append (h : ChunkLine line n) :
    ∃ before, line = before ++ ['\n'] ∧ '\n' ∉ before := by
  obtain ⟨digits, more, rfl, -, hdigits, -, hmore, -⟩ := h
  refine ⟨digits ++ more, by simp, fun hmem => ?_⟩
  rcases List.mem_append.mp hmem with hmem | hmem
  · have hdigit := hdigits _ hmem
    rw [isHexDigit_lineBreak] at hdigit
    cases hdigit
  · exact hmore hmem

/-- It does not begin with a line break, so that nothing of it is skipped. -/
theorem ChunkLine.skipCRLF_append (h : ChunkLine line n) (rest : Payload) :
    skipCRLF (line ++ rest) = line ++ rest := by
  obtain ⟨digits, more, rfl, hne, hdigits, -⟩ := h
  obtain ⟨c, digits, rfl⟩ := List.exists_cons_of_ne_nil hne
  have hc := hdigits c List.mem_cons_self
  have hnot : (c == '\r' || c == '\n') = false := by
    rw [Bool.or_eq_false_iff, beq_eq_false_iff_ne, beq_eq_false_iff_ne]
    constructor <;> rintro rfl <;> exact absurd hc (by decide)
  rw [skipCRLF, List.cons_append, List.cons_append, List.dropWhile_cons, if_neg (by simp [hnot])]

theorem ChunkLine.findLineBreak_append (h : ChunkLine line n) (rest : Payload) :
    findLineBreak (line ++ rest) + 1 = line.length ∧
      findLineBreak (line ++ rest) ≠ (line ++ rest).length := by
  obtain ⟨before, rfl, hbefore⟩ := h.eq_append
  have hfound := Http.findLineBreak_append hbefore rest
  rw [List.append_assoc, List.singleton_append, hfound]
  constructor
  · simp
  · simp only [List.length_append, List.length_cons]
    omega

/-- There is no line break in what has come of a line. -/
theorem ChunkLine.findLineBreak_of_prefix (h : ChunkLine line n) (hp : p <+: line ++ rest)
    (hlength : p.length < line.length) : findLineBreak p = p.length := by
  obtain ⟨before, rfl, hbefore⟩ := h.eq_append
  have hshort : p <+: before := by
    refine List.prefix_of_prefix_length_le hp ?_ (by simpa using Nat.lt_succ_iff.mp (by simpa using hlength))
    rw [List.append_assoc]
    exact List.prefix_append _ _
  exact findLineBreak_of_not_mem fun hmem => hbefore (hshort.mem hmem)

theorem foldl_hex_le (digits : Payload) (n : Nat) :
    n ≤ digits.foldl (fun n c => n * 16 + (hexDigitFromChar c).getD 0) n := by
  induction digits generalizing n with
  | nil => exact Nat.le_refl n
  | cons c digits ih =>
      have hrest := ih (n * 16 + (hexDigitFromChar c).getD 0)
      rw [List.foldl_cons]
      omega

/-- The digits are read, unless there are too many. -/
theorem readChunkLen_digits {digits : Payload} (hdigits : ∀ c ∈ digits, isHexDigit c = true)
    (hrest : ∀ c ∈ rest.head?, isHexDigit c = false)
    (hfits : digits.foldl (fun n c => n * 16 + (hexDigitFromChar c).getD 0) n <
      16 * (int64Max / 16)) :
    readChunkLen n (digits ++ rest) =
      some (digits.foldl (fun n c => n * 16 + (hexDigitFromChar c).getD 0) n) := by
  induction digits generalizing n with
  | nil =>
      cases rest with
      | nil => rfl
      | cons c rest =>
          have hc : hexDigitFromChar c = none := by
            simpa [isHexDigit] using hrest c rfl
          rw [List.nil_append, readChunkLen.eq_def]
          simp only [hc, List.foldl_nil]
  | cons c digits ih =>
      obtain ⟨digit, hdigit⟩ := Option.isSome_iff_exists.mp (hdigits c List.mem_cons_self)
      have hle := foldl_hex_le digits (n * 16 + digit)
      rw [List.foldl_cons, hdigit, Option.getD_some] at hfits
      have hsmall : ¬ int64Max / 16 ≤ n := by omega
      rw [List.cons_append, readChunkLen.eq_def]
      simp only [hdigit, hsmall, if_false]
      rw [ih (fun d hd => hdigits d (List.mem_cons_of_mem c hd)) hfits, List.foldl_cons, hdigit,
        Option.getD_some]

/-- More cannot be read as the length of a chunk. -/
def maxChunk : Nat := 16 * (int64Max / 16)

theorem ChunkLine.readChunkLen_append (h : ChunkLine line n) (hn : n < maxChunk) (rest : Payload) :
    readChunkLen 0 (line ++ rest) = some n := by
  obtain ⟨digits, more, rfl, -, hdigits, hmore, -, rfl⟩ := h
  have hhead : ∀ c ∈ (more ++ ('\n' :: rest)).head?, isHexDigit c = false := by
    intro c hc
    cases more with
    | nil =>
        cases hc
        exact isHexDigit_lineBreak
    | cons d more => exact hmore c hc
  have hsplit : digits ++ (more ++ ['\n']) ++ rest = digits ++ (more ++ ('\n' :: rest)) := by simp
  rw [hsplit]
  exact readChunkLen_digits hdigits hhead hn

@[simp] theorem write_nil (r : Received) : r.write [] = r := by
  simp [Received.write]

@[simp] theorem write_write (r : Received) (data more : Payload) :
    (r.write data).write more = r.write (data ++ more) := by
  simp [Received.write, Nat.add_assoc]

/-- Complete chunks have been read, and what has come of the next one is kept. -/
structure KeepsRest (payloads : List Payload) (chunks p : Payload) (r : Received)
    (result : BodyRead) : Prop where
  exists_split : ∃ done left doneText leftText q, payloads = done ++ left ∧
    chunks = doneText ++ leftText ∧ p = doneText ++ q ∧ Chunks ChunkLine crlf left leftText ∧
    result = .waiting (r.write done.flatten) q

theorem KeepsRest.nothing (h : Chunks ChunkLine crlf payloads chunks) :
    KeepsRest payloads chunks p r (.waiting r p) :=
  ⟨[], payloads, [], chunks, p, rfl, rfl, rfl, h, by simp⟩

theorem readChunks_nil (turns : Nat) (r : Received) : readChunks turns r [] = .waiting r [] := by
  cases turns <;> rfl

/-- No line break has come yet. -/
theorem readChunks_of_lineBreak (hp : findLineBreak p = p.length) (turns : Nat) (r : Received) :
    readChunks turns r p = .waiting r p := by
  cases turns with
  | zero => rfl
  | succ turns =>
      rw [readChunks]
      split
      · rfl
      · simp only [hp, if_true]

theorem readChunks_last (h : ChunkLine last 0) (turns : Nat) (r : Received) (rest : Payload) :
    readChunks (turns + 1) r (last ++ rest) = .finished r := by
  obtain ⟨-, hfound⟩ := h.findLineBreak_append rest
  have hread := h.readChunkLen_append (by decide) rest
  rw [readChunks, if_neg (by simp [h.ne_nil])]
  simp only [hfound, if_false, hread, Nat.lt_irrefl]

/-- One chunk, of which all has come or not. -/
theorem readChunks_line {payload : Payload} (h : ChunkLine line payload.length)
    (hne : payload ≠ []) (hsmall : payload.length < maxChunk) (turns : Nat) (r : Received)
    (q : Payload) :
    readChunks (turns + 1) r (line ++ q) =
      if q.length < payload.length + 2 then .waiting r (line ++ q)
      else readChunks turns (r.write (q.take payload.length)) (skipCRLF (q.drop payload.length)) := by
  obtain ⟨hoff, hfound⟩ := h.findLineBreak_append q
  have hread := h.readChunkLen_append hsmall q
  rw [readChunks, if_neg (by simp [h.ne_nil])]
  simp only [hfound, if_false, hread, List.length_pos_iff.mpr hne, if_true, hoff, List.drop_left]

theorem readChunks_prefix (h : Chunks ChunkLine crlf payloads chunks) (hlast : ChunkLine last 0)
    (hsmall : ∀ payload ∈ payloads, payload.length < maxChunk)
    (hp : p <+: chunks ++ (last ++ rest)) {turns : Nat} (hturns : p.length < turns)
    (r : Received) :
    chunks.length + last.length ≤ p.length ∧
        readChunks turns r p = .finished (r.write payloads.flatten) ∨
      p.length < chunks.length + last.length ∧
        KeepsRest payloads chunks p r (readChunks turns r p) := by
  induction h generalizing p r turns with
  | nil =>
      obtain ⟨turns, rfl⟩ : ∃ m, turns = m + 1 := ⟨turns - 1, by omega⟩
      rw [List.nil_append] at hp
      rcases Nat.lt_or_ge p.length last.length with hlt | hge
      · right
        rw [readChunks_of_lineBreak (hlast.findLineBreak_of_prefix hp hlt)]
        exact ⟨by simpa using hlt, .nothing .nil⟩
      · left
        obtain ⟨q, rfl⟩ := List.prefix_of_prefix_length_le (List.prefix_append last rest) hp hge
        rw [readChunks_last hlast]
        exact ⟨by simp, by simp⟩
  | @cons line payload text payloads hline hne hrest ih =>
      obtain ⟨turns, rfl⟩ : ∃ m, turns = m + 1 := ⟨turns - 1, by omega⟩
      have hall : Chunks ChunkLine crlf (payload :: payloads)
          (line ++ (payload ++ (crlf ++ text))) := .cons hline hne hrest
      simp only [List.append_assoc] at hp
      rcases Nat.lt_or_ge p.length line.length with hlt | hge
      · right
        rw [readChunks_of_lineBreak (hline.findLineBreak_of_prefix hp hlt)]
        exact ⟨by simp only [List.length_append]; omega, .nothing hall⟩
      · obtain ⟨q, rfl⟩ := List.prefix_of_prefix_length_le (List.prefix_append line _) hp hge
        rw [List.prefix_append_right_inj] at hp
        rw [readChunks_line hline hne (hsmall payload List.mem_cons_self)]
        by_cases hq : q.length < payload.length + 2
        · right
          rw [if_pos hq]
          refine ⟨?_, .nothing hall⟩
          have hpos := List.length_pos_iff.mpr hlast.ne_nil
          simp only [crlf, List.length_append, List.length_cons, List.length_nil]
          omega
        · -- The whole chunk has come.
          obtain ⟨q', rfl⟩ : payload ++ crlf <+: q := by
            refine List.prefix_of_prefix_length_le ?_ hp (by simpa [crlf] using hq)
            rw [← List.append_assoc]
            exact List.prefix_append _ _
          rw [if_neg hq]
          rw [← List.append_assoc payload crlf, List.prefix_append_right_inj] at hp
          have hskip : skipCRLF ((payload ++ crlf ++ q').drop payload.length) = q' := by
            rw [List.append_assoc, List.drop_left]
            show skipCRLF q' = q'
            cases q' with
            | nil => rfl
            | cons c q' =>
                have hstart : ∃ l n more, ChunkLine l n ∧ text ++ (last ++ rest) = l ++ more := by
                  cases hrest with
                  | nil => exact ⟨last, 0, rest, hlast, rfl⟩
                  | cons hline' _ _ => exact ⟨_, _, _, hline', by rw [List.append_assoc]⟩
                obtain ⟨l, n, more, hl, hmore⟩ := hstart
                obtain ⟨d, l', rfl⟩ := List.exists_cons_of_ne_nil hl.ne_nil
                have hnone := hl.skipCRLF_append []
                rw [hmore, List.cons_append] at hp
                obtain ⟨rfl, -⟩ := List.cons_prefix_cons.mp hp
                rw [List.append_nil, skipCRLF, List.dropWhile_cons] at hnone
                rw [skipCRLF, List.dropWhile_cons]
                split_ifs at hnone ⊢ with hskip
                · have hle := (List.dropWhile_suffix
                    (l := l') (fun c => c == '\r' || c == '\n')).length_le
                  rw [hnone, List.length_cons] at hle
                  omega
                · rfl
          have htake : (payload ++ crlf ++ q').take payload.length = payload := by
            rw [List.append_assoc, List.take_left]
          rw [hskip, htake]
          have hfuel : q'.length < turns := by
            simp only [List.length_append] at hturns
            have hpos := List.length_pos_iff.mpr hline.ne_nil
            omega
          rcases ih (fun p hp => hsmall p (List.mem_cons_of_mem payload hp)) hp hfuel
              (r.write payload) with ⟨hlong, hdone⟩ | ⟨hshort, hkeeps⟩
          · left
            rw [hdone, write_write, List.flatten_cons]
            refine ⟨?_, rfl⟩
            simp only [List.length_append] at hlong ⊢
            omega
          · right
            obtain ⟨done, left, doneText, leftText, q, rfl, rfl, rfl, hleft, hresult⟩ := hkeeps
            refine ⟨by simp only [List.length_append] at hshort ⊢; omega, payload :: done, left,
              line ++ (payload ++ (crlf ++ doneText)), leftText, q, rfl, ?_, ?_, hleft, ?_⟩
            · simp only [List.append_assoc]
            · simp only [List.append_assoc]
            · rw [hresult, write_write, List.flatten_cons]

end

/-! ## Bodies as they are sent -/

/-- A body: none, as many elements as the header says, or chunks, the line of the last chunk and
what comes behind that. -/
inductive BodyText
  | none
  | content (body : Payload)
  | chunked (payloads : List Payload) (chunks last trailer : Payload)

namespace BodyText

def text : BodyText → Payload
  | none => []
  | content body => body
  | chunked _ chunks last trailer => chunks ++ (last ++ trailer)

def decoded : BodyText → Payload
  | none => []
  | content body => body
  | chunked payloads _ _ _ => payloads.flatten

/-- Up to here a body is read; to find the end of no content takes one element more. -/
def stop : BodyText → Nat
  | none => 0
  | content body => max 1 body.length
  | chunked _ chunks last _ => chunks.length + last.length

/-- A trailer is lines, and a blank line. -/
def WellFormed : BodyText → Prop
  | none => True
  | content _ => True
  | chunked payloads chunks last trailer =>
      Chunks ChunkLine crlf payloads chunks ∧ ChunkLine last 0 ∧
        (∀ payload ∈ payloads, payload.length < maxChunk) ∧
        ∃ lines, trailer = linesText lines ++ crlf

/-- The header says how the body is sent. -/
def Framed (header : Header) : BodyText → Prop
  | none => True
  | content body =>
      header.chunked = false ∧ header.hasContentLength = true ∧
        header.getContentLength = body.length
  | chunked _ _ _ _ => header.chunked = true

end BodyText

variable {b : BodyText} {delivered buffer piece rest : Payload} {header : Header} {r : Received}

/-- What is there of a body that has not come to its end. -/
inductive BodyAt : BodyText → Payload → Received → Payload → Prop
  | content {body delivered : Payload} (h : delivered.length < max 1 body.length) :
      BodyAt (.content body) delivered (Received.none.write delivered) []
  | chunked {done left : List Payload} {doneText leftText last trailer buffer : Payload}
      (h : (doneText ++ buffer).length < (doneText ++ leftText).length + last.length)
      (hleft : Chunks ChunkLine crlf left leftText) :
      BodyAt (.chunked (done ++ left) (doneText ++ leftText) last trailer) (doneText ++ buffer)
        (Received.none.write done.flatten) buffer

/-- What has been received when a body is read to the end. -/
def BodyText.received : BodyText → Payload → Received
  | .content _, delivered => Received.none.write delivered
  | b, _ => Received.none.write b.decoded

/-- All the body has been received when all of it has come. -/
theorem BodyText.received_text {b : BodyText} : (b.received b.text).body = b.decoded := by
  cases b <;> rfl

theorem BodyText.WellFormed.stop_eq_zero (h : b.WellFormed) : b.stop = 0 ↔ b = .none := by
  cases b with
  | none => simp [BodyText.stop]
  | content body => simp [BodyText.stop]
  | chunked payloads chunks last trailer =>
      have hne := h.2.1.ne_nil
      simp [BodyText.stop, hne]

theorem bodyAt_start (h : b.WellFormed) (hb : b ≠ .none) : BodyAt b [] .none [] := by
  have hb := Nat.pos_of_ne_zero (mt h.stop_eq_zero.mp hb)
  cases b with
  | none => exact absurd hb (Nat.lt_irrefl 0)
  | content body => exact .content hb
  | chunked payloads chunks last trailer =>
      have hstart : BodyAt (.chunked ([] ++ payloads) ([] ++ chunks) last trailer) ([] ++ [])
          (Received.none.write ([] : List Payload).flatten) [] := .chunked hb h.1
      simpa using hstart

/-- A piece of the body is read, which is behind its end or not. -/
theorem readBody_of_bodyAt (h : b.WellFormed) (hframed : b.Framed header)
    (hat : BodyAt b delivered r buffer) (hpiece : delivered ++ piece <+: b.text ++ rest) :
    b.stop ≤ (delivered ++ piece).length ∧
        readBody header r (buffer ++ piece) = .finished (b.received (delivered ++ piece)) ∨
      (delivered ++ piece).length < b.stop ∧
        ∃ r' buffer', readBody header r (buffer ++ piece) = .waiting r' buffer' ∧
          BodyAt b (delivered ++ piece) r' buffer' := by
  cases hat with
  | @content body _ hshort =>
      obtain ⟨hchunked, hlength, hcontent⟩ := hframed
      rw [List.nil_append, readBody, hchunked, if_neg Bool.false_ne_true, readContent]
      cases piece with
      | nil =>
          right
          rw [if_pos rfl, List.append_nil]
          exact ⟨hshort, _, _, rfl, .content hshort⟩
      | cons c piece =>
          rw [if_neg (List.cons_ne_nil c piece), write_write]
          have hsize : (Received.none.write (delivered ++ c :: piece)).recvBodySize =
              (delivered ++ c :: piece).length := Nat.zero_add _
          have hpos : 1 ≤ (delivered ++ c :: piece).length := by
            rw [List.length_append, List.length_cons]
            omega
          simp only [hlength, hcontent, hsize, true_and, Int.ofNat_le]
          rcases Nat.lt_or_ge (delivered ++ c :: piece).length body.length with hlt | hge
          · right
            rw [if_neg (Nat.not_le.mpr hlt)]
            have hstop := Nat.lt_of_lt_of_le hlt (Nat.le_max_right 1 _)
            exact ⟨hstop, _, _, rfl, .content hstop⟩
          · left
            rw [if_pos hge]
            exact ⟨Nat.max_le.mpr ⟨hpos, hge⟩, rfl⟩
  | @chunked done left doneText leftText last trailer _ hshort hleft =>
      obtain ⟨-, hlast, hsmall, -⟩ := h
      have hchunked : header.chunked = true := hframed
      have hstart : buffer ++ piece <+: leftText ++ (last ++ (trailer ++ rest)) := by
        simpa [BodyText.text] using hpiece
      rw [readBody, hchunked, if_pos rfl]
      rcases readChunks_prefix hleft hlast
          (fun payload hp => hsmall payload (List.mem_append_right done hp)) hstart
          (Nat.lt_succ_self _) (Received.none.write done.flatten) with
        ⟨hlong, hdone⟩ | ⟨hshort', hkeeps⟩
      · left
        refine ⟨?_, ?_⟩
        · simp only [BodyText.stop, List.length_append] at hlong ⊢
          omega
        · rw [hdone, write_write, ← List.flatten_append]
          rfl
      · right
        obtain ⟨done', left', doneText', leftText', q, rfl, rfl, hq, hleft', hresult⟩ := hkeeps
        refine ⟨?_, _, q, hresult, ?_⟩
        · simp only [BodyText.stop, List.length_append] at hshort' ⊢
          omega
        · rw [write_write, ← List.flatten_append, List.append_assoc, hq, ← List.append_assoc,
            ← List.append_assoc, ← List.append_assoc]
          refine .chunked ?_ hleft'
          have hlength := congrArg List.length hq
          simp only [List.length_append] at hshort' hlength ⊢
          omega
/-- What comes of reading a piece of the body, for a message whose head has been read. -/
theorem BodyAt.reads {σ : Type*} {head : Payload} {complete : Payload → σ × Payload}
    {At : Payload → σ → Payload → Prop} {waiting finished : Received → σ} (h : b.WellFormed)
    (hframed : b.Framed header) (hat : BodyAt b delivered r buffer)
    (hpiece : delivered ++ piece <+: b.text ++ rest)
    (hcomplete : complete (head ++ (delivered ++ piece)) =
      (finished (b.received (delivered ++ piece)), []))
    (hwaiting : ∀ r' buffer', BodyAt b (delivered ++ piece) r' buffer' →
      At (head ++ (delivered ++ piece)) (waiting r') buffer') :
    Feeding.Reads (head.length + b.stop) complete At (head ++ (delivered ++ piece))
      (match readBody header r (buffer ++ piece) with
        | .failed => none
        | .waiting received available => some (waiting received, available)
        | .finished received => some (finished received, [])) := by
  rw [Feeding.Reads, hcomplete, List.length_append]
  cases readBody_of_bodyAt h hframed hat hpiece with
  | inl hread =>
      obtain ⟨hstop, hread⟩ := hread
      rw [hread]
      exact .inl ⟨Nat.add_le_add_left hstop _, rfl⟩
  | inr hread =>
      obtain ⟨hstop, r', buffer', hread, hat'⟩ := hread
      rw [hread]
      exact .inr ⟨Nat.add_lt_add_left hstop _, _, _, rfl, hwaiting r' buffer' hat'⟩


theorem readBody_nil (header : Header) (r : Received) : readBody header r [] = .waiting r [] := by
  rw [readBody]
  split
  · exact readChunks_nil _ r
  · rfl

theorem readChunks_length_le {turns : Nat} {r' : Received} {p q : Payload}
    (h : readChunks turns r p = .waiting r' q) : q.length ≤ p.length := by
  induction turns generalizing r p with
  | zero =>
      cases h
      exact Nat.le_refl _
  | succ turns ih =>
      have hskip : ∀ p : Payload, (skipCRLF p).length ≤ p.length := fun p =>
        (List.dropWhile_suffix _).length_le
      rw [readChunks] at h
      simp only at h
      split_ifs at h
      · cases h
        exact Nat.le_refl _
      · cases h
        exact Nat.le_refl _
      · split at h
        · cases h
        · split_ifs at h
          · cases h
            exact Nat.le_refl _
          · refine (ih h).trans ((hskip _).trans ?_)
            rw [List.length_drop, List.length_drop]
            omega

/-- Nothing is put back. -/
theorem readBody_length_le {r' : Received} {p q : Payload}
    (h : readBody header r p = .waiting r' q) : q.length ≤ p.length := by
  rw [readBody] at h
  split at h
  · exact readChunks_length_le h
  · rw [readContent] at h
    simp only at h
    split_ifs at h
    · cases h
      exact Nat.le_refl _
    · cases h
      exact Nat.zero_le _

end CoolOnline.Http
