import CoolOnline.Common.HexUtil
import CoolOnline.Library.Chunked
import CoolOnline.Library.Spans

/-! # Chunked requests in the input buffer

`StreamSocket::parseHeader`, `checkChunks` and `compactChunks` of `net/Socket.cpp`: whether the
input buffer holds all of a request whose body is sent in chunks, and the chunks put together.
-/

namespace CoolOnline.StreamSocket

open HexUtil Chunked

structure MessageMap where
  headerSize : Nat
  messageSize : Nat
  /-- Offsets and lengths. -/
  spans : List (Nat × Nat)
deriving DecidableEq, Repr

/-- `parseHeader`; there is no result while the content is not all there. -/
def parseHeader (headerSize bufferSize : Nat) (contentLength : Option Nat) : Option MessageMap :=
  match contentLength with
  | none => some ⟨headerSize, headerSize, []⟩
  | some length =>
      if bufferSize < length then none else some ⟨headerSize, headerSize + length, []⟩

/-- How `checkChunks` ends: it returns `true` or `false`, `false` after a shutdown, or it reads
behind the end of the buffer. -/
inductive Checked
  | complete (map : MessageMap)
  | incomplete (map : MessageMap)
  | malformed (map : MessageMap)
  | outOfBounds
deriving DecidableEq, Repr

/-- Where the loop is after one chunk; `available` is what comes behind the size line. -/
inductive ChunkRead
  | last (available : Payload)
  | short
  | malformed (chunkLen : Nat) (available : Payload)
  | outOfBounds
  | chunk (chunkLen : Nat) (available behind : Payload)
deriving DecidableEq, Repr

/-- The length before the payload, in 64 bits, and what comes behind its line. -/
def readSizeLine (text : Payload) : Nat × Payload :=
  let length := text.dropWhile Text.isSpace
  ((length.takeWhile isHexDigit).foldl
      (fun n c => (n * 16 + (hexDigitFromChar c).getD 0) % 2 ^ 64) 0,
    ((length.dropWhile isHexDigit).dropWhile (· != '\n')).tail)

def readChunk (text : Payload) : ChunkRead :=
  match readSizeLine text with
  | (chunkLen, available) =>
      if chunkLen = 0 then .last available
      else if chunkLen > available.length + 2 then .short
      else
        match available.drop chunkLen with
        | [] => .outOfBounds
        | c :: more =>
            if c ≠ '\r' then .malformed chunkLen available
            else
              match more with
              | [] => .outOfBounds
              | d :: behind =>
                  if d ≠ '\n' then .malformed chunkLen available
                  else .chunk chunkLen available behind

def MessageMap.addSpan (map : MessageMap) (offset length : Nat) : MessageMap :=
  { map with spans := map.spans ++ [(offset, length)] }

/-- The loop over the chunks, in a buffer of the given size. -/
def checkFrom (size : Nat) : Nat → Payload → MessageMap → Checked
  | 0, _, map => .incomplete map
  | _ + 1, [], map => .incomplete map
  | fuel + 1, text@(_ :: _), map =>
      match readChunk text with
      | .last available => .complete { map with messageSize := size - available.length }
      | .short => .incomplete map
      | .malformed chunkLen available =>
          .malformed (map.addSpan (size - available.length) chunkLen)
      | .outOfBounds => .outOfBounds
      | .chunk chunkLen available behind =>
          checkFrom size fuel behind (map.addSpan (size - available.length) chunkLen)

/-- Every turn of the loop reads one element at least. -/
def checkChunks (chunked : Bool) (inBuffer : Payload) (headerSize : Nat) (map : MessageMap) :
    Checked :=
  if !chunked then .complete map
  else
    checkFrom inBuffer.length (inBuffer.length + 1) (inBuffer.drop headerSize)
      (map.addSpan 0 headerSize)

/-- The buffer, the map, and whether anything moved. -/
def compactChunks (inBuffer : Payload) (map : MessageMap) : Payload × MessageMap × Bool :=
  if map.spans = [] then (inBuffer, map, false)
  else
    match Spans.collate inBuffer 0 map.spans with
    | (moved, newEnd) =>
        let gap := map.messageSize - newEnd
        (moved.take newEnd ++ moved.drop map.messageSize,
          { map with messageSize := map.messageSize - gap }, true)

/-! ## Size lines -/

def crlf : Payload := ['\r', '\n']

/-- A line of hexadecimal digits and what may follow them, with space before it. -/
def SizeLine (line : Payload) (n : Nat) : Prop :=
  ∃ space digits more, line = space ++ (digits ++ (more ++ ['\n'])) ∧
    (∀ c ∈ space, Text.isSpace c = true) ∧ digits ≠ [] ∧ (∀ c ∈ digits, isHexDigit c = true) ∧
    (∀ c ∈ more.head?, isHexDigit c = false) ∧ '\n' ∉ more ∧ hexValue digits = n

/-- A size line, of which 64 bits count. -/
def SizeLine64 (line : Payload) (n : Nat) : Prop :=
  ∃ value, SizeLine line value ∧ value % 2 ^ 64 = n

def digitsOf (text : Payload) : Payload := (text.dropWhile Text.isSpace).takeWhile isHexDigit

/-- What follows the digits. -/
def behindDigits (text : Payload) : Payload := (text.dropWhile Text.isSpace).dropWhile isHexDigit

theorem foldl_mod (digits : Payload) (n : Nat) :
    digits.foldl (fun n c => (n * 16 + (hexDigitFromChar c).getD 0) % 2 ^ 64) (n % 2 ^ 64) =
      digits.foldl (fun n c => n * 16 + (hexDigitFromChar c).getD 0) n % 2 ^ 64 := by
  induction digits generalizing n with
  | nil => rfl
  | cons c digits ih =>
      have hstep : (n % 2 ^ 64 * 16 + (hexDigitFromChar c).getD 0) % 2 ^ 64 =
          (n * 16 + (hexDigitFromChar c).getD 0) % 2 ^ 64 := by
        omega
      rw [List.foldl_cons, hstep, ih, List.foldl_cons]

theorem readSizeLine_eq (text : Payload) :
    readSizeLine text = (hexValue (digitsOf text) % 2 ^ 64,
      ((behindDigits text).dropWhile (· != '\n')).tail) := by
  have hmod := foldl_mod (digitsOf text) 0
  rw [Nat.zero_mod] at hmod
  rw [hexValue, ← hmod]
  rfl

/-- A text begins with a size line where there are digits and then the end of a line. -/
theorem exists_sizeLine_iff {text behind : Payload} {n : Nat} :
    (∃ line, SizeLine line n ∧ text = line ++ behind) ↔
      digitsOf text ≠ [] ∧ hexValue (digitsOf text) = n ∧
        (behindDigits text).dropWhile (· != '\n') = '\n' :: behind := by
  constructor
  · rintro ⟨line, ⟨space, digits, more, rfl, hspace, hne, hdigits, hmore, hline, rfl⟩, rfl⟩
    have hfirst : ∀ c ∈ (digits ++ (more ++ ('\n' :: behind))).head?, Text.isSpace c = false := by
      intro c hc
      rw [List.head?_append_of_ne_nil _ hne] at hc
      exact isSpace_of_isHexDigit (hdigits c (List.mem_of_mem_head? hc))
    have hnext : ∀ c ∈ (more ++ ('\n' :: behind)).head?, isHexDigit c = false := by
      intro c hc
      cases more with
      | nil =>
          cases hc
          decide
      | cons d more => exact hmore c hc
    have htext : space ++ (digits ++ (more ++ ['\n'])) ++ behind =
        space ++ (digits ++ (more ++ ('\n' :: behind))) := by
      simp
    have hsplit := Text.span_append hdigits hnext
    have hend : (more ++ '\n' :: behind).takeWhile (· != '\n') = more ∧
        (more ++ '\n' :: behind).dropWhile (· != '\n') = '\n' :: behind :=
      Text.span_append (fun c hc => by simpa using ne_of_mem_of_not_mem hc hline) (by simp)
    rw [digitsOf, behindDigits, htext, (Text.span_append hspace hfirst).2, hsplit.1, hsplit.2]
    exact ⟨hne, rfl, hend.2⟩
  · rintro ⟨hne, hvalue, hend⟩
    refine ⟨text.takeWhile Text.isSpace ++ (digitsOf text ++
      ((behindDigits text).takeWhile (· != '\n') ++ ['\n'])), ⟨_, _, _, rfl, ?_, hne, ?_, ?_, ?_,
        hvalue⟩, ?_⟩
    · exact fun c hc => List.mem_takeWhile_imp hc
    · exact fun c hc => List.mem_takeWhile_imp hc
    · intro c hc
      have hnot := List.head?_dropWhile_not isHexDigit (text.dropWhile Text.isSpace)
      cases hbehind : behindDigits text with
      | nil => simp [hbehind] at hc
      | cons d more =>
          rw [behindDigits] at hbehind
          rw [behindDigits, hbehind, List.takeWhile_cons] at hc
          rw [hbehind] at hnot
          split at hc
          · rw [← Option.some.inj hc]
            exact hnot
          · simp at hc
    · exact fun hmem => by simpa using List.mem_takeWhile_imp hmem
    · have hmore := List.takeWhile_append_dropWhile (p := fun c => c != '\n')
        (l := behindDigits text)
      have hdigits := List.takeWhile_append_dropWhile (p := isHexDigit)
        (l := text.dropWhile Text.isSpace)
      have hspace := List.takeWhile_append_dropWhile (p := Text.isSpace) (l := text)
      rw [hend] at hmore
      simp only [List.append_assoc, List.singleton_append, hmore]
      rw [digitsOf, behindDigits, hdigits, hspace]

theorem readSizeLine_append {line : Payload} {n : Nat} (h : SizeLine line n) (rest : Payload) :
    readSizeLine (line ++ rest) = (n % 2 ^ 64, rest) := by
  have hread := exists_sizeLine_iff.mp ⟨line, h, (rfl : line ++ rest = line ++ rest)⟩
  rw [readSizeLine_eq, hread.2.1, hread.2.2, List.tail_cons]

theorem unambiguous_sizeLine64 : Unambiguous SizeLine64 := by
  rintro line line' n n' rest rest' ⟨v, hline, rfl⟩ ⟨v', hline', rfl⟩ heq
  have hread := readSizeLine_append hline rest
  rw [heq, readSizeLine_append hline' rest'] at hread
  have hsame := Prod.mk.inj hread
  rw [hsame.2] at heq
  exact ⟨List.append_cancel_right heq, hsame.1.symm⟩

theorem sizeLine64_of_lt {line : Payload} {n : Nat} (h : SizeLine line n) (hn : n < 2 ^ 64) :
    SizeLine64 line n := ⟨n, h, Nat.mod_eq_of_lt hn⟩

theorem sizeLine64_of_chunks {payloads : List Payload} {text : Payload}
    (h : Chunks SizeLine crlf payloads text) (hlength : text.length < 2 ^ 64) :
    Chunks SizeLine64 crlf payloads text := by
  refine h.imp fun line payload hmem hline => sizeLine64_of_lt hline ?_
  have := h.length_le hmem
  omega

theorem SizeLine.ne_nil {line : Payload} {n : Nat} (h : SizeLine line n) : line ≠ [] := by
  obtain ⟨_, _, _, rfl, -⟩ := h
  simp

/-! ## One chunk -/

/-- The length that a text begins with, as it is read. -/
def chunkLen (text : Payload) : Nat := hexValue (digitsOf text) % 2 ^ 64

/-- What comes behind the first end of a line after the length. -/
def available (text : Payload) : Payload := ((behindDigits text).dropWhile (· != '\n')).tail

/-- A chunk of which the end is cut off, by two elements of its payload at most, by the line break
behind it or by the second half of that. -/
structure CutShort (text : Payload) : Prop where
  size : chunkLen text ≠ 0
  near : chunkLen text ≤ (available text).length + 2
  cut : (available text).drop (chunkLen text) = [] ∨ (available text).drop (chunkLen text) = ['\r']

theorem readChunk_def (text : Payload) :
    readChunk text =
      if chunkLen text = 0 then .last (available text)
      else if chunkLen text > (available text).length + 2 then .short
      else
        match (available text).drop (chunkLen text) with
        | [] => .outOfBounds
        | c :: more =>
            if c ≠ '\r' then .malformed (chunkLen text) (available text)
            else
              match more with
              | [] => .outOfBounds
              | d :: behind =>
                  if d ≠ '\n' then .malformed (chunkLen text) (available text)
                  else .chunk (chunkLen text) (available text) behind := by
  rw [readChunk, readSizeLine_eq]
  rfl

theorem readChunk_eq_last_iff {text left : Payload} :
    readChunk text = .last left ↔ chunkLen text = 0 ∧ left = available text := by
  rw [readChunk_def]
  constructor
  · intro h
    split_ifs at h with hzero hshort
    · exact ⟨hzero, (ChunkRead.last.inj h).symm⟩
    · cases hleft : (available text).drop (chunkLen text) with
      | nil => simp [hleft] at h
      | cons c more =>
          cases more <;> simp only [hleft] at h <;> split_ifs at h
  · rintro ⟨hzero, rfl⟩
    rw [if_pos hzero]

theorem readChunk_eq_outOfBounds_iff {text : Payload} :
    readChunk text = .outOfBounds ↔ CutShort text := by
  rw [readChunk_def]
  constructor
  · intro h
    split_ifs at h with hzero hshort
    refine ⟨hzero, by omega, ?_⟩
    cases hleft : (available text).drop (chunkLen text) with
    | nil => exact .inl rfl
    | cons c more =>
        rw [hleft] at h
        simp only at h
        split_ifs at h with hc
        cases more with
        | nil => exact .inr (by simpa using hc)
        | cons d behind =>
            simp only at h
            split_ifs at h
  · rintro ⟨hsize, hnear, hcut | hcut⟩
    · simp [hsize, Nat.not_lt.mpr hnear, hcut]
    · simp [hsize, Nat.not_lt.mpr hnear, hcut]

theorem exists_sizeLine_of_available {text : Payload} (hsize : chunkLen text ≠ 0)
    (hne : available text ≠ []) :
    ∃ line, SizeLine64 line (chunkLen text) ∧ text = line ++ available text := by
  have hdigits : digitsOf text ≠ [] := fun h => hsize (by rw [chunkLen, h]; rfl)
  have hend : (behindDigits text).dropWhile (· != '\n') = '\n' :: available text := by
    have hnot := List.head?_dropWhile_not (· != '\n') (behindDigits text)
    rw [available] at hne ⊢
    cases hrest : (behindDigits text).dropWhile (· != '\n') with
    | nil => simp [hrest] at hne
    | cons c rest =>
        rw [hrest] at hnot
        rw [List.tail_cons, show c = '\n' by simpa using hnot]
  obtain ⟨line, hline, htext⟩ := exists_sizeLine_iff.mpr ⟨hdigits, rfl, hend⟩
  exact ⟨line, ⟨_, hline, rfl⟩, htext⟩

theorem read_append {line : Payload} {n : Nat} (h : SizeLine64 line n) (rest : Payload) :
    chunkLen (line ++ rest) = n ∧ available (line ++ rest) = rest := by
  obtain ⟨v, hline, rfl⟩ := h
  have hread := readSizeLine_append hline rest
  rw [readSizeLine_eq] at hread
  exact Prod.mk.inj hread

/-- What is read as a chunk is one. -/
theorem readChunk_eq_chunk_iff {text rest behind : Payload} {n : Nat} :
    readChunk text = .chunk n rest behind ↔
      ∃ line payload, SizeLine64 line payload.length ∧ payload ≠ [] ∧ n = payload.length ∧
        rest = payload ++ (crlf ++ behind) ∧ text = line ++ rest := by
  constructor
  · intro h
    rw [readChunk_def] at h
    split_ifs at h with hzero hshort
    cases hleft : (available text).drop (chunkLen text) with
    | nil => simp [hleft] at h
    | cons c more =>
        cases more with
        | nil =>
            simp only [hleft] at h
            split_ifs at h
        | cons d left =>
            simp only [hleft] at h
            split_ifs at h with hc hd
            simp only [ChunkRead.chunk.injEq] at h
            obtain ⟨rfl, rfl, rfl⟩ := h
            have hlength : chunkLen text < (available text).length := by
              have := congrArg List.length hleft
              simp only [List.length_drop, List.length_cons] at this
              omega
            have hne : available text ≠ [] := List.ne_nil_of_length_pos (by omega)
            obtain ⟨line, hline, htext⟩ := exists_sizeLine_of_available hzero hne
            have htake : ((available text).take (chunkLen text)).length = chunkLen text := by
              rw [List.length_take]
              omega
            refine ⟨line, (available text).take (chunkLen text), by rwa [htake], ?_, htake.symm,
              ?_, htext⟩
            · exact List.ne_nil_of_length_pos (by omega)
            · have hsplit := List.take_append_drop (chunkLen text) (available text)
              rw [hleft, not_not.mp hc, not_not.mp hd] at hsplit
              exact hsplit.symm
  · rintro ⟨line, payload, hline, hne, rfl, rfl, rfl⟩
    have hread := read_append hline (payload ++ (crlf ++ behind))
    have hsize : payload.length ≠ 0 := fun h => hne (List.length_eq_zero_iff.mp h)
    have hnear : ¬ payload.length > (payload ++ (crlf ++ behind)).length + 2 := by
      simp only [List.length_append]
      omega
    rw [readChunk_def, hread.1, hread.2, if_neg hsize, if_neg hnear, List.drop_left]
    rfl

/-! ## The loop -/

section Loop

variable {size : Nat} {payloads : List Payload} {read rest : Payload}

theorem checkFrom_of_chunk {text behind left : Payload} {n : Nat} (fuel : Nat) (map : MessageMap)
    (h : readChunk text = .chunk n left behind) (hne : text ≠ []) :
    checkFrom size (fuel + 1) text map =
      checkFrom size fuel behind (map.addSpan (size - left.length) n) := by
  cases text with
  | nil => exact absurd rfl hne
  | cons c text => rw [checkFrom, h]

/-- Complete chunks are read, and their spans remembered. -/
theorem checkFrom_chunks (rest : Payload) (h : Chunks SizeLine64 crlf payloads read)
    (pre : Payload) (fuel : Nat) (map : MessageMap) (hsize : (pre ++ (read ++ rest)).length = size)
    (hfuel : (read ++ rest).length < fuel) :
    ∃ fuel' spans, rest.length < fuel' ∧
      Spans.Within (pre ++ (read ++ rest)) (size - rest.length) pre.length spans payloads ∧
      checkFrom size fuel (read ++ rest) map =
        checkFrom size fuel' rest { map with spans := map.spans ++ spans } := by
  induction h generalizing pre fuel map with
  | nil =>
      refine ⟨fuel, [], hfuel, .nil ?_, by simp⟩
      rw [List.nil_append, List.length_append] at hsize
      omega
  | @cons line payload text payloads hline hne _ ih =>
      have htext : line ++ (payload ++ (crlf ++ text)) ++ rest =
          line ++ (payload ++ (crlf ++ (text ++ rest))) := by
        simp
      have hread : readChunk (line ++ (payload ++ (crlf ++ (text ++ rest)))) =
          .chunk payload.length (payload ++ (crlf ++ (text ++ rest))) (text ++ rest) :=
        readChunk_eq_chunk_iff.mpr ⟨line, payload, hline, hne, rfl, rfl, rfl⟩
      have hpre : pre ++ (line ++ (payload ++ (crlf ++ (text ++ rest)))) =
          (pre ++ (line ++ (payload ++ crlf))) ++ (text ++ rest) := by
        simp
      rw [htext, hpre] at hsize
      rw [htext] at hfuel ⊢
      have hcrlf : crlf.length = 2 := rfl
      simp only [List.length_append] at hsize hfuel
      obtain ⟨turns, rfl⟩ : ∃ turns, fuel = turns + 1 := ⟨fuel - 1, by omega⟩
      have hoffset : size - (payload ++ (crlf ++ (text ++ rest))).length =
          (pre ++ line).length := by
        simp only [List.length_append]
        omega
      obtain ⟨fuel', spans, hfuel', hwithin, hcheck⟩ :=
        ih (pre ++ (line ++ (payload ++ crlf))) turns
          (map.addSpan (pre ++ line).length payload.length)
          (by simp only [List.length_append]; omega) (by simp only [List.length_append]; omega)
      refine ⟨fuel', ((pre ++ line).length, payload.length) :: spans, hfuel', ?_, ?_⟩
      · refine .cons (by simp) ?_ ?_
        · rw [← List.append_assoc pre, List.drop_left, List.take_left]
        · rw [hpre]
          refine hwithin.mono ?_
          simp only [List.length_append]
          omega
      · have hne' : line ++ (payload ++ (crlf ++ (text ++ rest))) ≠ [] := by simp [hne]
        rw [checkFrom_of_chunk _ _ hread hne', hoffset, hcheck]
        simp [MessageMap.addSpan]

/-- Every text is complete chunks up to where no more is read. -/
theorem exists_chunks (text : Payload) :
    ∃ payloads read rest, Chunks SizeLine64 crlf payloads read ∧ text = read ++ rest ∧
      ∀ n left behind, readChunk rest ≠ .chunk n left behind := by
  induction hlength : text.length using Nat.strong_induction_on generalizing text with
  | _ length ih =>
      by_cases hchunk : ∃ n left behind, readChunk text = .chunk n left behind
      · obtain ⟨n, left, behind, hread⟩ := hchunk
        obtain ⟨line, payload, hline, hne, rfl, rfl, rfl⟩ := readChunk_eq_chunk_iff.mp hread
        have hshorter : behind.length < length := by
          have hcrlf : crlf.length = 2 := rfl
          simp only [List.length_append] at hlength
          omega
        obtain ⟨payloads, read, rest, hchunks, rfl, hstop⟩ := ih _ hshorter behind rfl
        exact ⟨payload :: payloads, _, rest, .cons hline hne hchunks, by simp, hstop⟩
      · exact ⟨[], [], text, .nil, rfl, fun n left behind h => hchunk ⟨n, left, behind, h⟩⟩

end Loop

/-! ## A request -/

section Request

variable (header body : Payload) (messageSize : Nat)

/-- `checkChunks` for the map that `parseHeader` makes. -/
def checked : Checked :=
  checkChunks true (header ++ body) header.length ⟨header.length, messageSize, []⟩

/-- The body starts with all of a chunked body, up to the line of its last chunk. -/
def Holds (payloads : List Payload) (rest : Payload) : Prop :=
  ∃ chunked, Body SizeLine crlf payloads chunked ∧ body = chunked ++ rest

/-- What checking and compacting a chunked request should do. -/
structure Recognised : Prop where
  complete_iff : (∃ map, checked header body messageSize = .complete map) ↔
    ∃ payloads rest, Holds body payloads rest
  inBounds : checked header body messageSize ≠ .outOfBounds
  compacted : ∀ map, checked header body messageSize = .complete map →
    ∃ payloads rest, Holds body payloads rest ∧
      compactChunks (header ++ body) map = (header ++ (payloads.flatten ++ rest),
        { map with messageSize := header.length + payloads.flatten.length }, true)

/-- Where the body goes on after complete chunks, their lengths counted in 64 bits, it is not a
chunk cut off near its end; and where it says that there are no more chunks, or says no length, it
does so in a whole line, after chunks of which no length was cut down to 64 bits. -/
def NotMisread : Prop :=
  ∀ payloads read rest, Chunks SizeLine64 crlf payloads read → body = read ++ rest → rest ≠ [] →
    ¬ CutShort rest ∧
      (chunkLen rest = 0 → Chunks SizeLine crlf payloads read ∧
        ∃ line more, SizeLine line 0 ∧ rest = line ++ more)

end Request

section Request

variable {header body : Payload} {messageSize : Nat} {payloads : List Payload} {read rest : Payload}

/-- The check of a buffer that starts with complete chunks comes to what follows them. -/
theorem checked_eq (header : Payload) (messageSize : Nat)
    (h : Chunks SizeLine64 crlf payloads read) (hbody : body = read ++ rest) :
    ∃ fuel spans, rest.length < fuel ∧
      Spans.Within (header ++ body) ((header ++ body).length - rest.length) 0
        ((0, header.length) :: spans) (header :: payloads) ∧
      checked header body messageSize = checkFrom (header ++ body).length fuel rest
        ⟨header.length, messageSize, (0, header.length) :: spans⟩ := by
  subst hbody
  obtain ⟨fuel, spans, hfuel, hwithin, hcheck⟩ :=
    checkFrom_chunks rest h header ((header ++ (read ++ rest)).length + 1)
      ⟨header.length, messageSize, [(0, header.length)]⟩ rfl
      (by simp only [List.length_append]; omega)
  refine ⟨fuel, spans, hfuel, .cons (le_refl 0) (by simp) (by simpa using hwithin), ?_⟩
  rw [checked, checkChunks, Bool.not_true, if_neg Bool.false_ne_true, List.drop_left]
  exact hcheck

theorem available_length_le (text : Payload) : (available text).length ≤ text.length := by
  have hsub : List.Sublist (available text) text :=
    (List.tail_sublist _).trans ((List.dropWhile_sublist _).trans
      ((List.dropWhile_sublist _).trans (List.dropWhile_sublist _)))
  exact hsub.length_le

theorem checked_of_last (header : Payload) (messageSize : Nat)
    (h : Chunks SizeLine64 crlf payloads read) (hbody : body = read ++ rest) (hne : rest ≠ [])
    (hlast : chunkLen rest = 0) :
    ∃ spans,
      Spans.Within (header ++ body) ((header ++ body).length - (available rest).length) 0
        ((0, header.length) :: spans) (header :: payloads) ∧
      checked header body messageSize = .complete ⟨header.length,
        (header ++ body).length - (available rest).length, (0, header.length) :: spans⟩ := by
  obtain ⟨fuel, spans, hfuel, hwithin, hcheck⟩ := checked_eq header messageSize h hbody
  refine ⟨spans, hwithin.stop_mono ?_, ?_⟩
  · have := available_length_le rest
    omega
  · obtain ⟨turns, rfl⟩ : ∃ turns, fuel = turns + 1 := ⟨fuel - 1, by omega⟩
    obtain ⟨c, more, hrest⟩ := List.exists_cons_of_ne_nil hne
    rw [hcheck, hrest, checkFrom, ← hrest, readChunk_eq_last_iff.mpr ⟨hlast, rfl⟩]

theorem noChunk_of_last (hlast : chunkLen rest = 0) : NoChunk SizeLine64 rest := by
  rintro line n more hline rfl
  rw [← (read_append hline more).1]
  exact hlast

/-- Compacting puts together the spans that the check remembered. -/
theorem compactChunks_eq {buffer : Payload} {spans : List (Nat × Nat)} {stop : Nat}
    (h : Spans.Within buffer stop 0 ((0, header.length) :: spans) (header :: payloads))
    (hstop : stop ≤ buffer.length) :
    compactChunks buffer ⟨header.length, stop, (0, header.length) :: spans⟩ =
      (header ++ (payloads.flatten ++ buffer.drop stop),
        ⟨header.length, header.length + payloads.flatten.length, (0, header.length) :: spans⟩,
        true) := by
  obtain ⟨hend, htake, hdrop⟩ := Spans.collate_eq h (le_refl 0) hstop rfl rfl
  have hfit := h.flatten_le
  simp only [List.flatten_cons, List.length_append, Nat.zero_add, List.take_zero,
    List.nil_append] at hend htake hfit
  have hsize : stop - (stop - (header.length + payloads.flatten.length)) =
      header.length + payloads.flatten.length := by
    omega
  simp only [compactChunks, reduceCtorEq, if_false, hend, htake, hdrop, hsize, List.append_assoc]

/-- A body that is all there is found complete, and its chunks are put together. -/
theorem complete_of_holds (header : Payload) (hlength : body.length < 2 ^ 64)
    (h : Holds body payloads rest) :
    ∃ map, checked header body messageSize = .complete map ∧
      compactChunks (header ++ body) map = (header ++ (payloads.flatten ++ rest),
        { map with messageSize := header.length + payloads.flatten.length }, true) := by
  obtain ⟨_, ⟨chunks, last, hchunks, hlast, rfl⟩, rfl⟩ := h
  have hchunks64 := sizeLine64_of_chunks hchunks
    (by simp only [List.length_append] at hlength; omega)
  have hread := read_append (sizeLine64_of_lt hlast (by decide)) rest
  have hne : last ++ rest ≠ [] := by simp [hlast.ne_nil]
  obtain ⟨spans, hwithin, hcheck⟩ := checked_of_last header messageSize hchunks64
    (List.append_assoc chunks last rest) hne hread.1
  refine ⟨_, hcheck, ?_⟩
  have hbehind : (header ++ (chunks ++ last ++ rest)).drop
      ((header ++ (chunks ++ last ++ rest)).length - rest.length) = rest := by
    rw [← List.append_assoc header, List.length_append, Nat.add_sub_cancel, List.drop_left]
  rw [compactChunks_eq hwithin (Nat.sub_le _ _), hread.2, hbehind]

/-- While a body is found incomplete it has to be. -/
theorem recognised_of_not_complete (hlength : body.length < 2 ^ 64)
    (hcomplete : ∀ map, checked header body messageSize ≠ .complete map)
    (hbounds : checked header body messageSize ≠ .outOfBounds) :
    Recognised header body messageSize := by
  refine ⟨⟨fun ⟨map, hmap⟩ => absurd hmap (hcomplete map), ?_⟩, hbounds,
    fun map hmap => absurd hmap (hcomplete map)⟩
  rintro ⟨payloads, rest, h⟩
  obtain ⟨map, hmap, -⟩ := complete_of_holds header hlength h
  exact ⟨map, hmap⟩

theorem recognised_of_holds (hlength : body.length < 2 ^ 64) (h : Holds body payloads rest) :
    Recognised header body messageSize := by
  obtain ⟨map, hmap, hcompact⟩ := complete_of_holds header hlength h
  refine ⟨⟨fun _ => ⟨payloads, rest, h⟩, fun _ => ⟨map, hmap⟩⟩, by simp [hmap], ?_⟩
  intro map' hmap'
  cases hmap.symm.trans hmap'
  exact ⟨payloads, rest, h, hcompact⟩

theorem notMisread_of_recognised (hlength : body.length < 2 ^ 64)
    (h : Recognised header body messageSize) : NotMisread body := by
  intro payloads read rest hchunks hbody hne
  constructor
  · intro hcut
    obtain ⟨fuel, spans, hfuel, -, hcheck⟩ := checked_eq header messageSize hchunks hbody
    obtain ⟨turns, rfl⟩ : ∃ turns, fuel = turns + 1 := ⟨fuel - 1, by omega⟩
    obtain ⟨c, more, hrest⟩ := List.exists_cons_of_ne_nil hne
    apply h.inBounds
    rw [hcheck, hrest, checkFrom, ← hrest, readChunk_eq_outOfBounds_iff.mpr hcut]
  · intro hlast
    obtain ⟨spans, -, hcheck⟩ := checked_of_last header messageSize hchunks hbody hne hlast
    obtain ⟨payloads', rest', _, ⟨chunks, last, hchunks', hlast', rfl⟩, hbody'⟩ :=
      h.complete_iff.mp ⟨_, hcheck⟩
    have hread := read_append (sizeLine64_of_lt hlast' (by decide)) rest'
    have hchunks64 := sizeLine64_of_chunks hchunks'
      (by rw [hbody'] at hlength; simp only [List.length_append] at hlength; omega)
    have hsame := Chunks.unique unambiguous_sizeLine64 hchunks hchunks64
      (by rw [← hbody, hbody', List.append_assoc]) (noChunk_of_last hlast)
      (noChunk_of_last hread.1)
    obtain ⟨rfl, rfl⟩ := hsame
    rw [hbody, List.append_assoc] at hbody'
    exact ⟨hchunks', last, rest', hlast', List.append_cancel_left hbody'⟩

theorem recognised_of_notMisread (hlength : body.length < 2 ^ 64) (h : NotMisread body) :
    Recognised header body messageSize := by
  obtain ⟨payloads, read, rest, hchunks, hbody, hstop⟩ := exists_chunks body
  obtain ⟨fuel, spans, hfuel, -, hcheck⟩ := checked_eq header messageSize hchunks hbody
  obtain ⟨turns, rfl⟩ : ∃ turns, fuel = turns + 1 := ⟨fuel - 1, by omega⟩
  by_cases hne : rest = []
  · rw [hne, checkFrom] at hcheck
    exact recognised_of_not_complete hlength (by simp [hcheck]) (by simp [hcheck])
  obtain ⟨hcut, hlast⟩ := h payloads read rest hchunks hbody hne
  by_cases hzero : chunkLen rest = 0
  · obtain ⟨hexact, line, more, hline, rfl⟩ := hlast hzero
    have hholds : Holds body payloads more :=
      ⟨read ++ line, ⟨read, line, hexact, hline, rfl⟩, by simp [hbody]⟩
    exact recognised_of_holds hlength hholds
  · obtain ⟨c, more, hrest⟩ := List.exists_cons_of_ne_nil hne
    rw [hrest, checkFrom, ← hrest] at hcheck
    have hbounds : readChunk rest ≠ .outOfBounds := mt readChunk_eq_outOfBounds_iff.mp hcut
    cases hread : readChunk rest with
    | last left =>
        exact absurd (readChunk_eq_last_iff.mp hread).1 hzero
    | short =>
        rw [hread] at hcheck
        exact recognised_of_not_complete hlength (by simp [hcheck]) (by simp [hcheck])
    | malformed n left =>
        rw [hread] at hcheck
        exact recognised_of_not_complete hlength (by simp [hcheck]) (by simp [hcheck])
    | outOfBounds => exact absurd hread hbounds
    | chunk n left behind => exact absurd hread (hstop n left behind)

/-- A chunked request is recognised exactly where its body is not cut where the check misreads
it. -/
theorem recognised_iff (header : Payload) (messageSize : Nat) (hlength : body.length < 2 ^ 64) :
    Recognised header body messageSize ↔ NotMisread body :=
  ⟨notMisread_of_recognised hlength, recognised_of_notMisread hlength⟩

/-- The header of a request whose body is sent in chunks. -/
def chunkedHeader : Payload := "POST / HTTP/1.1\r\nTransfer-Encoding: chunked\r\n\r\n".toList

theorem recognised_iff_hello :
    "5\r\nhello\r\n0\r\n\r\n".toList.length < 2 ^ 64 ∧
      (Recognised chunkedHeader "5\r\nhello\r\n0\r\n\r\n".toList 49 ↔
        NotMisread "5\r\nhello\r\n0\r\n\r\n".toList) :=
  ⟨by decide, recognised_iff chunkedHeader 49 (by decide)⟩

/-- Two elements before the end of its payload a chunk is read behind the end of the buffer. -/
theorem not_recognised_hel : ¬ ∀ (header body : Payload) (messageSize : Nat),
    body.length < 2 ^ 64 → Recognised header body messageSize := by
  intro h
  have hbounds : checked chunkedHeader "5\r\nhel".toList 49 = .outOfBounds := by decide +kernel
  exact (h chunkedHeader "5\r\nhel".toList 49 (by decide)).inBounds hbounds

end Request

end CoolOnline.StreamSocket
