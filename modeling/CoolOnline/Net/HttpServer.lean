import CoolOnline.Net.HttpHeader

/-! # Responses with a range of a file

`ServerSession` of `net/HttpServer.hpp`: `asyncUpload` for a `Range` header, the header that
`onConnect` sends, and the body that `performWrites` sends piece by piece. An `int` that overflows
wraps around.
-/

namespace CoolOnline.Http

inductive StatusCode
  | OK
  | PartialContent
deriving DecidableEq, Repr

/-- `std::stoi`, which throws when there is no number, or none that is an `int`. -/
def stoi (text : Payload) : Option Int :=
  (Text.leadingInt text).bind fun n => if IsInt32 n then some n else none

/-- A value of an `int` as a `size_t`. -/
def toSizeT (n : Int) : Nat := (toInt32 n % 2 ^ 64).toNat

/-- `_start`, `_end`, `_startIsSuffix` and `_statusCode`. -/
structure Range where
  start : Int
  stop : Int
  startIsSuffix : Bool
  statusCode : StatusCode
deriving DecidableEq, Repr

namespace Range

def bytesUnit : Payload := ['b', 'y', 't', 'e', 's']

def whole : Range := ⟨0, -1, false, .OK⟩

/-- A range that begins with a dash could be a suffix. -/
def parseSuffix (endString : Payload) : Range :=
  match stoi endString with
  | some start => ⟨start, -1, true, .PartialContent⟩
  | none => ⟨0, -1, false, .PartialContent⟩

def parseInterval (startString endString : Payload) : Range :=
  match stoi startString with
  | none => ⟨0, -1, false, .PartialContent⟩
  | some start =>
      match stoi endString with
      | none => ⟨start, -1, false, .PartialContent⟩
      | some stop => ⟨start, toInt32 (stop + 1), false, .PartialContent⟩

/-- What a `Range` header asks for. -/
def parse (rangeHeader : Payload) : Range :=
  if '=' ∉ rangeHeader then whole
  else if rangeHeader.takeWhile (· != '=') ≠ bytesUnit then whole
  else
    let range := (rangeHeader.dropWhile (· != '=')).tail
    let startString := range.takeWhile (· != '-')
    let endString := if '-' ∈ range then (range.dropWhile (· != '-')).tail else ['-', '1']
    if startString = [] then parseSuffix endString else parseInterval startString endString

end Range

/-- A session, with the body bytes and the reads of the file so far, each with its offset and the
number of bytes that it gave. -/
structure ServerSession where
  pos : Int
  size : Int
  /-- The descriptor while it is open, by its offset in the file. -/
  fd : Option Nat
  range : Range
  body : List UInt8
  reads : List (Nat × Nat)
deriving DecidableEq, Repr

structure ServerResponse where
  statusCode : StatusCode
  header : Header
deriving DecidableEq, Repr

/-- What `read` gives: not all that is asked for, maybe, but something if there is something. -/
def readFile (file : List UInt8) (burst : Nat → Nat) (offset size : Nat) : List UInt8 :=
  (file.drop offset).take (min size (burst offset + 1))

namespace ServerSession

section

variable (s : ServerSession)

def getStart : Int :=
  if s.range.startIsSuffix then toInt32 (s.size - s.range.start) else s.range.start

def getEnd : Int :=
  if s.range.startIsSuffix then s.size
  else if s.range.stop = -1 then s.size
  else if s.size < s.range.stop then s.size
  else s.range.stop

def getSendSize : Int :=
  if s.size < s.getStart then 0 else toInt32 (s.getEnd - s.getStart)

end

/-- The file of these bytes is open, and the position is where the range begins, unless seeking
there fails. -/
def asyncUpload (file : List UInt8) (rangeHeader : Payload) : ServerSession :=
  let s : ServerSession := ⟨-1, toInt32 file.length, some 0, .parse rangeHeader, [], []⟩
  if s.getStart < 0 then s else { s with pos := s.getStart, fd := some s.getStart.toNat }

def ACCEPT_RANGES : Payload := "Accept-Ranges".toList

def CONTENT_RANGE : Payload := "Content-Range".toList

/-- The value of the field, from the first position to the last one. -/
def contentRange (first last size : Int) : Payload :=
  "bytes ".toList ++
    (Text.decimal first ++ ('-' :: (Text.decimal last ++ ('/' :: Text.decimal size))))

/-- The response that is sent, made at a date by a server of a name. -/
def onConnect (s : ServerSession) (date server : Payload) (responseHeaders : List Field) :
    ServerResponse where
  statusCode := s.range.statusCode
  header :=
    let header : Header := ⟨[("Date".toList, date), ("Server".toList, server)], false⟩
    let header := responseHeaders.foldl (fun header field => header.set field.1 field.2) header
    let header := header.set Header.CONTENT_LENGTH (Text.decimal s.getSendSize)
    let header := header.set ACCEPT_RANGES Range.bytesUnit
    header.set CONTENT_RANGE (contentRange s.getStart (toInt32 (s.getEnd - 1)) s.size)

/-- What the next read of the file gives. -/
def nextBuffer (file : List UInt8) (burst : Nat → Nat) (capacity offset : Nat) (s : ServerSession) :
    List UInt8 :=
  readFile file burst offset (min (64 * 1024) (min capacity (toSizeT (s.getEnd - s.pos))))

/-- The end of the file or of the range, found by a read. -/
def closeFile (offset : Nat) (buffer : List UInt8) (s : ServerSession) : ServerSession :=
  { s with fd := none, reads := s.reads ++ [(offset, buffer.length)] }

def sendBuffer (offset : Nat) (buffer : List UInt8) (s : ServerSession) : ServerSession :=
  { s with
    fd := some (offset + buffer.length)
    body := s.body ++ buffer
    pos := s.pos + buffer.length
    reads := s.reads ++ [(offset, buffer.length)] }

/-- The loop of a call, which ends when the capacity is used up or the file has been closed. -/
def performWrites (file : List UInt8) (burst : Nat → Nat) (capacity : Nat) (s : ServerSession) :
    ServerSession :=
  match s.fd with
  | none => s
  | some offset =>
      if _hcapacity : capacity = 0 then s
      else
        let buffer := s.nextBuffer file burst capacity offset
        if _hdone : buffer = [] ∨ s.getEnd ≤ s.pos then s.closeFile offset buffer
        else performWrites file burst (capacity - buffer.length) (s.sendBuffer offset buffer)
termination_by capacity
decreasing_by
  have hlength := List.length_pos_iff.mpr (not_or.mp _hdone).1
  exact Nat.sub_lt (Nat.pos_of_ne_zero _hcapacity) hlength

/-- The session after so many calls. -/
def afterWrites (file : List UInt8) (burst capacities : Nat → Nat) (s : ServerSession) :
    Nat → ServerSession
  | 0 => s
  | k + 1 => (s.afterWrites file burst capacities k).performWrites file burst (capacities k)

/-! ## What a response is to be -/

/-- The bytes of a file from one position up to another. -/
def slice (file : List UInt8) (first stop : Nat) : List UInt8 :=
  (file.drop first).take (stop - first)

/-- A number as it may be written. -/
def Numeral (text : Payload) : Prop := text ≠ [] ∧ ∀ c ∈ text, c.isDigit = true

def numeralValue (text : Payload) : Nat := Nat.ofDigitChars 10 text 0

/-- The ranges of bytes that can be asked for, by the numerals in the header. -/
inductive ByteRange
  | between (a b : Payload)
  | start (a : Payload)
  | suffix (k : Payload)

namespace ByteRange

def header : ByteRange → Payload
  | between a b => Range.bytesUnit ++ ('=' :: (a ++ ('-' :: b)))
  | start a => Range.bytesUnit ++ ('=' :: (a ++ ['-']))
  | suffix k => Range.bytesUnit ++ ('=' :: '-' :: k)

/-- The range has something of a file of this size, or is a suffix of one. -/
def Satisfiable (size : Nat) : ByteRange → Prop
  | between a b => Numeral a ∧ Numeral b ∧ numeralValue a ≤ numeralValue b ∧ numeralValue a < size
  | start a => Numeral a ∧ numeralValue a < size
  | suffix k => Numeral k ∧ 1 ≤ numeralValue k

def first (size : Nat) : ByteRange → Nat
  | between a _ => numeralValue a
  | start a => numeralValue a
  | suffix k => size - min (numeralValue k) size

/-- The position behind the last byte. -/
def stop (size : Nat) : ByteRange → Nat
  | between _ b => min (numeralValue b) (size - 1) + 1
  | start _ => size
  | suffix _ => size

end ByteRange

/-- With any positive capacities the session comes to its end, having sent a body like this. -/
def Sends (file : List UInt8) (s : ServerSession) (P : List UInt8 → Prop) : Prop :=
  ∀ burst capacities : Nat → Nat, (∀ i, 0 < capacities i) →
    ∃ m, ∀ k, m ≤ k →
      (s.afterWrites file burst capacities k).fd = none ∧
        P (s.afterWrites file burst capacities k).body

/-- The response to a `Range` header: it announces the length of the body, a range that can be had
is named and sent, and nothing behind the end is read. -/
structure Responds (file : List UInt8) (rangeHeader : Payload) (date server : Payload)
    (responseHeaders : List Field) : Prop where
  announced : ∃ length : Nat,
    ((asyncUpload file rangeHeader).onConnect date server responseHeaders).header.get
        Header.CONTENT_LENGTH = Text.decimal length ∧
      Sends file (asyncUpload file rangeHeader) fun body => body.length = length
  named : ∀ asked : ByteRange, asked.header = rangeHeader → asked.Satisfiable file.length →
    ((asyncUpload file rangeHeader).onConnect date server responseHeaders).header.get
        CONTENT_RANGE =
      contentRange (asked.first file.length) ((asked.stop file.length : Int) - 1) file.length ∧
      Sends file (asyncUpload file rangeHeader) fun body =>
        body = slice file (asked.first file.length) (asked.stop file.length)
  within : ∀ burst capacities k,
    ∀ read ∈ ((asyncUpload file rangeHeader).afterWrites file burst capacities k).reads,
      read.2 = 0 ∨ (read.1 + read.2 : Int) ≤ (asyncUpload file rangeHeader).getEnd

end ServerSession

/-- A suffix is not longer than the file; other ranges begin behind the end of the file, or do not
end in front of where they begin. -/
def Range.InOrder (range : Range) (size : Nat) : Prop :=
  if range.startIsSuffix then range.start ≤ size ∧ size - range.start < 2 ^ 31
  else (size : Int) < range.start ∨ range.stop = -1 ∨ range.start ≤ range.stop

instance (range : Range) (size : Nat) : Decidable (range.InOrder size) :=
  inferInstanceAs (Decidable
    (if range.startIsSuffix then range.start ≤ size ∧ size - range.start < 2 ^ 31
    else (size : Int) < range.start ∨ range.stop = -1 ∨ range.start ≤ range.stop))

namespace Header

variable {key key' value : Payload} {headers : List Field}

theorem find_setField :
    (setField key value headers).find? (fun field => iequal field.1 key') =
      if iequal key key' then
        some ((((headers.find? fun field => iequal field.1 key').map Prod.fst).getD key), value)
      else headers.find? fun field => iequal field.1 key' := by
  induction headers with
  | nil =>
      rw [setField, List.find?_cons]
      cases iequal key key' <;> rfl
  | cons field headers ih =>
      rw [setField]
      by_cases hname : iequal field.1 key = true
      · -- The name of the field and the key are equal to the same keys.
        have hsame : iequal field.1 key' = iequal key key' := by
          simp only [iequal, beq_iff_eq] at hname ⊢
          rw [hname]
        rw [if_pos hname, List.find?_cons, List.find?_cons, hsame]
        cases iequal key key' <;> rfl
      · have hother : iequal key key' = true → iequal field.1 key' = false := by
          intro hkey
          rw [Bool.eq_false_iff]
          intro hfield
          simp only [iequal, beq_iff_eq] at hname hkey hfield
          exact hname (hfield.trans hkey.symm)
        rw [if_neg hname, List.find?_cons, List.find?_cons, ih]
        cases hkey : iequal key key' with
        | true =>
            rw [hother hkey]
        | false => rfl

theorem get_set (h : Header) :
    (h.set key value).get key' = if iequal key key' then value else h.get key' := by
  rw [get, set, find_setField]
  split
  · rfl
  · rfl

end Header

namespace ServerSession

variable {file : List UInt8} {burst capacities : Nat → Nat} {first stop offset capacity : Nat}
  {s : ServerSession}

@[simp] theorem get_contentLength (date server : Payload) (responseHeaders : List Field) :
    (s.onConnect date server responseHeaders).header.get Header.CONTENT_LENGTH =
      Text.decimal s.getSendSize := by
  have hranges : iequal ACCEPT_RANGES Header.CONTENT_LENGTH = false := by decide +kernel
  have hrange : iequal CONTENT_RANGE Header.CONTENT_LENGTH = false := by decide +kernel
  have hself : iequal Header.CONTENT_LENGTH Header.CONTENT_LENGTH = true := by simp [iequal]
  simp only [onConnect, Header.get_set, hranges, hrange, hself, Bool.false_eq_true, if_false,
    if_true]

@[simp] theorem get_contentRange (date server : Payload) (responseHeaders : List Field) :
    (s.onConnect date server responseHeaders).header.get CONTENT_RANGE =
      contentRange s.getStart (toInt32 (s.getEnd - 1)) s.size := by
  have hself : iequal CONTENT_RANGE CONTENT_RANGE = true := by simp [iequal]
  simp only [onConnect, Header.get_set, hself, if_true]

/-! ### The write loop -/

theorem performWrites_of_closed (hfd : s.fd = none) :
    s.performWrites file burst capacity = s := by
  rw [performWrites, hfd]

theorem performWrites_zero : s.performWrites file burst 0 = s := by
  rw [performWrites]
  cases s.fd with
  | none => rfl
  | some offset => rfl

theorem performWrites_of_done (hfd : s.fd = some offset) (hcapacity : capacity ≠ 0)
    (hdone : s.nextBuffer file burst capacity offset = [] ∨ s.getEnd ≤ s.pos) :
    s.performWrites file burst capacity =
      s.closeFile offset (s.nextBuffer file burst capacity offset) := by
  rw [performWrites]
  simp only [hfd, hcapacity, dif_neg, hdone, dif_pos, not_false_eq_true]

theorem performWrites_of_more (hfd : s.fd = some offset) (hcapacity : capacity ≠ 0)
    (hmore : ¬ (s.nextBuffer file burst capacity offset = [] ∨ s.getEnd ≤ s.pos)) :
    s.performWrites file burst capacity =
      performWrites file burst (capacity - (s.nextBuffer file burst capacity offset).length)
        (s.sendBuffer offset (s.nextBuffer file burst capacity offset)) := by
  rw [performWrites]
  simp only [hfd, hcapacity, dif_neg, hmore, not_false_eq_true]

/-- Both ways in which a turn of the loop goes keep a property. -/
structure Kept (file : List UInt8) (burst : Nat → Nat) (I : ServerSession → Prop) : Prop where
  close : ∀ s offset capacity, s.fd = some offset → capacity ≠ 0 → I s →
    s.nextBuffer file burst capacity offset = [] ∨ s.getEnd ≤ s.pos →
    I (s.closeFile offset (s.nextBuffer file burst capacity offset))
  send : ∀ s offset capacity, s.fd = some offset → I s →
    s.nextBuffer file burst capacity offset ≠ [] → s.pos < s.getEnd →
    I (s.sendBuffer offset (s.nextBuffer file burst capacity offset))

section

variable {I : ServerSession → Prop}

theorem Kept.performWrites (hkept : Kept file burst I) (h : I s) (capacity : Nat) :
    I (s.performWrites file burst capacity) := by
  induction capacity using Nat.strong_induction_on generalizing s with
  | _ capacity ih =>
      cases hfd : s.fd with
      | none =>
          rw [performWrites_of_closed hfd]
          exact h
      | some offset =>
          by_cases hcapacity : capacity = 0
          · rw [hcapacity, performWrites_zero]
            exact h
          · by_cases hdone : s.nextBuffer file burst capacity offset = [] ∨ s.getEnd ≤ s.pos
            · rw [performWrites_of_done hfd hcapacity hdone]
              exact hkept.close s offset capacity hfd hcapacity h hdone
            · rw [performWrites_of_more hfd hcapacity hdone]
              rcases not_or.mp hdone with ⟨hsome, hfront⟩
              have hlength := List.length_pos_iff.mpr hsome
              have hsent := hkept.send s offset capacity hfd h hsome (Int.not_le.mp hfront)
              exact ih _ (by omega) hsent

theorem Kept.afterWrites (hkept : Kept file burst I) (h : I s) (k : Nat) :
    I (s.afterWrites file burst capacities k) := by
  induction k with
  | zero => exact h
  | succ k ih => exact hkept.performWrites ih (capacities k)

end

theorem length_nextBuffer_le :
    (s.nextBuffer file burst capacity offset).length ≤ file.length - offset := by
  rw [nextBuffer, readFile, List.length_take, List.length_drop]
  exact Nat.min_le_right _ _

theorem kept_fd_ge (start : Nat) :
    Kept file burst fun s => ∀ next, s.fd = some next → start ≤ next := by
  constructor
  · intro s offset capacity hfd hcapacity h hdone next hnext
    cases hnext
  · intro s offset capacity hfd h hsome hfront next hnext
    cases hnext
    exact Nat.le_add_right_of_le (h offset hfd)

theorem kept_fd_le {bound : Nat} (hbound : file.length ≤ bound) :
    Kept file burst fun s => ∀ next, s.fd = some next → next ≤ bound := by
  constructor
  · intro s offset capacity hfd hcapacity h hdone next hnext
    cases hnext
  · intro s offset capacity hfd h hsome hfront next hnext
    cases hnext
    have hlength := List.length_pos_iff.mpr hsome
    have hle : (s.nextBuffer file burst capacity offset).length ≤ file.length - offset :=
      length_nextBuffer_le
    omega

/-- A call moves on in the file, or closes it. -/
theorem fd_performWrites (hcapacity : 0 < capacity) {next : Nat}
    (hnext : (s.performWrites file burst capacity).fd = some next) :
    ∃ offset, s.fd = some offset ∧ offset < next := by
  cases hfd : s.fd with
  | none =>
      rw [performWrites_of_closed hfd, hfd] at hnext
      cases hnext
  | some offset =>
      refine ⟨offset, rfl, ?_⟩
      by_cases hdone : s.nextBuffer file burst capacity offset = [] ∨ s.getEnd ≤ s.pos
      · rw [performWrites_of_done hfd hcapacity.ne' hdone] at hnext
        cases hnext
      · rw [performWrites_of_more hfd hcapacity.ne' hdone] at hnext
        have hlength := List.length_pos_iff.mpr (not_or.mp hdone).1
        refine (kept_fd_ge (offset + 1)).performWrites ?_ _ next hnext
        intro start hstart
        cases hstart
        omega

theorem le_of_fd_afterWrites (hcapacities : ∀ i, 0 < capacities i) {k : Nat}
    (hfd : (s.afterWrites file burst capacities k).fd = some offset) : k ≤ offset := by
  induction k generalizing offset with
  | zero => exact Nat.zero_le offset
  | succ k ih =>
      rcases fd_performWrites (hcapacities k) hfd with ⟨before, hbefore, hlt⟩
      have hle := ih hbefore
      omega

/-- With positive capacities the file is closed in the end. -/
theorem exists_closed (file : List UInt8) (burst : Nat → Nat) (s : ServerSession)
    (hcapacities : ∀ i, 0 < capacities i) :
    ∃ m, ∀ k, m ≤ k → (s.afterWrites file burst capacities k).fd = none := by
  refine ⟨max file.length (s.fd.getD 0) + 1, fun k hk => ?_⟩
  cases hfd : (s.afterWrites file burst capacities k).fd with
  | none => rfl
  | some offset =>
      have hstart : ∀ next, s.fd = some next → next ≤ max file.length (s.fd.getD 0) := by
        intro next hnext
        rw [hnext]
        exact Nat.le_max_right _ _
      have hle := (kept_fd_le (Nat.le_max_left _ _)).afterWrites hstart k offset hfd
      have hge := le_of_fd_afterWrites hcapacities hfd
      omega

/-- What is sent in the end, from a property that the turns keep. -/
theorem sends_of_kept {I : ServerSession → Prop} {P : List UInt8 → Prop}
    (hkept : ∀ burst, Kept file burst I) (h : I s)
    (hclosed : ∀ s : ServerSession, I s → s.fd = none → P s.body) : Sends file s P := by
  intro burst capacities hcapacities
  rcases exists_closed file burst s hcapacities with ⟨m, hm⟩
  exact ⟨m, fun k hk => ⟨hm k hk, hclosed _ ((hkept burst).afterWrites h k) (hm k hk)⟩⟩

/-- Two properties of what is sent hold of one body. -/
theorem Sends.exists_body {P Q : List UInt8 → Prop} (hP : Sends file s P) (hQ : Sends file s Q) :
    ∃ body, P body ∧ Q body := by
  rcases hP (fun _ => 0) (fun _ => 1) fun _ => Nat.one_pos with ⟨m, hm⟩
  rcases hQ (fun _ => 0) (fun _ => 1) fun _ => Nat.one_pos with ⟨m', hm'⟩
  exact ⟨_, (hm (max m m') (Nat.le_max_left _ _)).2, (hm' (max m m') (Nat.le_max_right _ _)).2⟩

/-! ### What is sent -/

theorem toSizeT_of_nat {n : Nat} (h : n < 2 ^ 31) : toSizeT n = n := by
  rw [toSizeT, toInt32_of_isInt32 ⟨by omega, by omega⟩]
  omega

theorem slice_append {len : Nat} (h : first ≤ offset) :
    slice file first offset ++ (file.drop offset).take len = slice file first (offset + len) := by
  have hoffset : offset = first + (offset - first) := by omega
  have hlen : offset + len - first = offset - first + len := by omega
  rw [slice, slice, hlen, List.take_add, List.drop_drop, ← hoffset]

theorem length_slice (hstop : stop ≤ file.length) :
    (slice file first stop).length = stop - first := by
  rw [slice, List.length_take, List.length_drop]
  omega

/-- The bytes from one position on are sent, up to another one. -/
structure Sending (file : List UInt8) (first stop : Nat) (s : ServerSession) : Prop where
  ends : s.getEnd = stop
  opened : ∀ offset, s.fd = some offset →
    s.pos = offset ∧ first ≤ offset ∧ offset ≤ stop ∧ s.body = slice file first offset
  closed : s.fd = none → s.body = slice file first stop
  within : ∀ read ∈ s.reads, read.1 + read.2 ≤ stop

/-- What the next read gives, while there is something to send. -/
theorem Sending.nextBuffer_eq (h : Sending file first stop s) (hfd : s.fd = some offset)
    (hsize : file.length < 2 ^ 31) (hstop : stop ≤ file.length) (burst : Nat → Nat)
    (capacity : Nat) :
    s.nextBuffer file burst capacity offset =
      (file.drop offset).take
        (min (min (64 * 1024) (min capacity (stop - offset))) (burst offset + 1)) := by
  rcases h.opened offset hfd with ⟨hpos, -, hle, -⟩
  have hleft : s.getEnd - s.pos = (stop - offset : Nat) := by
    rw [h.ends, hpos]
    omega
  rw [nextBuffer, readFile, hleft, toSizeT_of_nat (by omega)]

theorem Sending.within_append (h : Sending file first stop s) (hfd : s.fd = some offset)
    (hsize : file.length < 2 ^ 31) (hstop : stop ≤ file.length) (burst : Nat → Nat)
    (capacity : Nat) :
    ∀ read ∈ s.reads ++ [(offset, (s.nextBuffer file burst capacity offset).length)],
      read.1 + read.2 ≤ stop := by
  intro read hread
  rcases List.mem_append.mp hread with hold | hnew
  · exact h.within read hold
  · cases List.mem_singleton.mp hnew
    have hle := (h.opened offset hfd).2.2.1
    rw [h.nextBuffer_eq hfd hsize hstop, List.length_take]
    simp only
    omega

theorem kept_sending (hsize : file.length < 2 ^ 31) (hstop : stop ≤ file.length) :
    Kept file burst (Sending file first stop) := by
  constructor
  · intro s offset capacity hfd hcapacity h hdone
    rcases h.opened offset hfd with ⟨hpos, hfirst, hle, hbody⟩
    -- Nothing comes any more only at the end.
    have hend : offset = stop := by
      rcases hdone with hnil | hbehind
      · rw [h.nextBuffer_eq hfd hsize hstop, List.take_eq_nil_iff, List.drop_eq_nil_iff] at hnil
        omega
      · rw [h.ends, hpos] at hbehind
        omega
    refine ⟨h.ends, fun _ hopen => (by cases hopen), fun _ => ?_,
      h.within_append hfd hsize hstop burst capacity⟩
    rw [← hend]
    exact hbody
  · intro s offset capacity hfd h hsome hfront
    rcases h.opened offset hfd with ⟨hpos, hfirst, hle, hbody⟩
    have hbuffer := h.nextBuffer_eq hfd hsize hstop burst capacity
    have hself : s.nextBuffer file burst capacity offset =
        (file.drop offset).take (s.nextBuffer file burst capacity offset).length := by
      rw [hbuffer, List.length_take, List.take_eq_take_iff]
      omega
    have hlength : (s.nextBuffer file burst capacity offset).length ≤ stop - offset := by
      rw [hbuffer, List.length_take]
      omega
    refine ⟨h.ends, fun next hopen => ?_, fun hclosed => (by cases hclosed),
      h.within_append hfd hsize hstop burst capacity⟩
    cases hopen
    refine ⟨?_, by omega, by omega, ?_⟩
    · rw [sendBuffer]
      simp only [hpos]
      omega
    · rw [← slice_append hfirst, ← hself, sendBuffer, hbody]

/-- Behind the end of the file nothing is read. -/
structure Behind (file : List UInt8) (s : ServerSession) : Prop where
  opened : ∀ offset, s.fd = some offset → file.length ≤ offset
  body : s.body = []
  within : ∀ read ∈ s.reads, read.2 = 0

theorem kept_behind : Kept file burst (Behind file) := by
  have hnone : ∀ {s : ServerSession} {offset capacity : Nat}, s.fd = some offset → Behind file s →
      s.nextBuffer file burst capacity offset = [] := by
    intro s offset capacity hfd h
    rw [nextBuffer, readFile, List.drop_eq_nil_of_le (h.opened offset hfd), List.take_nil]
  constructor
  · intro s offset capacity hfd hcapacity h hdone
    refine ⟨fun _ hopen => (by cases hopen), h.body, fun read hread => ?_⟩
    rcases List.mem_append.mp hread with hold | hnew
    · exact h.within read hold
    · rw [List.mem_singleton.mp hnew, hnone hfd h]
      rfl
  · intro s offset capacity hfd h hsome hfront
    exact absurd (hnone hfd h) hsome

/-- A range that has ended before the file is read sends nothing. -/
theorem kept_ended : Kept file burst fun s => s.getEnd ≤ s.pos ∧ s.body = [] := by
  constructor
  · intro s offset capacity hfd hcapacity h hdone
    exact h
  · intro s offset capacity hfd h hsome hfront
    exact absurd h.1 (Int.not_le.mpr hfront)

/-- No more is sent than there is. -/
theorem kept_length : Kept file burst fun s =>
    s.body.length ≤ file.length ∧ ∀ offset, s.fd = some offset → s.body.length ≤ offset := by
  constructor
  · intro s offset capacity hfd hcapacity h hdone
    exact ⟨h.1, fun _ hopen => (by cases hopen)⟩
  · intro s offset capacity hfd h hsome hfront
    have hlength := List.length_pos_iff.mpr hsome
    have hle : (s.nextBuffer file burst capacity offset).length ≤ file.length - offset :=
      length_nextBuffer_le
    have hbody := h.2 offset hfd
    have hnext : (s.sendBuffer offset (s.nextBuffer file burst capacity offset)).body.length =
        s.body.length + (s.nextBuffer file burst capacity offset).length := List.length_append
    refine ⟨by omega, fun next hopen => ?_⟩
    cases hopen
    omega

end ServerSession

/-! ### What is parsed -/

theorem isInt32_of_stoi {text : Payload} {n : Int} (h : stoi text = some n) : IsInt32 n := by
  rcases Option.bind_eq_some_iff.mp h with ⟨m, -, hm⟩
  split_ifs at hm with hrange
  cases hm
  exact hrange

theorem nonneg_of_stoi {text : Payload} {n : Int} (hdash : '-' ∉ text) (h : stoi text = some n) :
    0 ≤ n := by
  rcases Option.bind_eq_some_iff.mp h with ⟨m, hread, hm⟩
  split_ifs at hm with hrange
  cases hm
  rw [Text.leadingInt] at hread
  split at hread
  · next rest hspace =>
      have hmem : '-' ∈ text.dropWhile Text.isSpace := by
        rw [hspace]
        exact List.mem_cons_self
      exact absurd ((List.dropWhile_suffix _).subset hmem) hdash
  · rcases Option.map_eq_some_iff.mp hread with ⟨k, -, hk⟩
    rw [← hk]
    exact Int.natCast_nonneg k
  · rcases Option.map_eq_some_iff.mp hread with ⟨k, -, hk⟩
    rw [← hk]
    exact Int.natCast_nonneg k

/-- A numeral is read when its value is an `int`. -/
theorem stoi_numeral {text : Payload} (h : ServerSession.Numeral text) :
    stoi text = if ServerSession.numeralValue text < 2 ^ 31 then
      some (ServerSession.numeralValue text : Int) else none := by
  have hrange : IsInt32 (ServerSession.numeralValue text) ↔
      ServerSession.numeralValue text < 2 ^ 31 :=
    ⟨fun hint => by exact_mod_cast hint.2, fun hlt => ⟨by omega, by omega⟩⟩
  rw [stoi, Text.leadingInt_of_digits h.1 h.2, Option.bind_some, ← ServerSession.numeralValue]
  simp only [hrange]

theorem stoi_nil : stoi [] = none := rfl

namespace Range

/-- The numbers are in range, and a start that is no offset from the end is not negative. -/
structure Valid (range : Range) : Prop where
  start : IsInt32 range.start
  stop : IsInt32 range.stop
  nonneg : range.startIsSuffix = false → 0 ≤ range.start

theorem isInt32_minus_one : IsInt32 (-1) := by decide

theorem valid_parseSuffix (endString : Payload) : (parseSuffix endString).Valid := by
  rw [parseSuffix]
  split
  · next start hread =>
      exact ⟨isInt32_of_stoi hread, isInt32_minus_one, fun h => by cases h⟩
  · exact ⟨by decide, by decide, fun _ => Int.le_refl 0⟩

theorem valid_parseInterval {startString : Payload} (hdash : '-' ∉ startString)
    (endString : Payload) : (parseInterval startString endString).Valid := by
  rw [parseInterval]
  split
  · exact ⟨by decide, by decide, fun _ => Int.le_refl 0⟩
  · next start hread =>
      have hstart := isInt32_of_stoi hread
      have hnonneg := nonneg_of_stoi hdash hread
      split
      · exact ⟨hstart, isInt32_minus_one, fun _ => hnonneg⟩
      · exact ⟨hstart, isInt32_toInt32 _, fun _ => hnonneg⟩

theorem valid_parse (rangeHeader : Payload) : (parse rangeHeader).Valid := by
  have hwhole : whole.Valid := ⟨by decide, by decide, fun _ => Int.le_refl 0⟩
  have hcut : ∀ text : Payload, '-' ∉ text.takeWhile (· != '-') := by
    intro text hmem
    have hother := List.mem_takeWhile_imp hmem
    simp at hother
  rw [parse]
  split
  · exact hwhole
  · split
    · exact hwhole
    · dsimp only
      split
      · exact valid_parseSuffix _
      · exact valid_parseInterval (hcut _) _

/-- A header in bytes is cut at its first dash. -/
theorem parse_bytes {startString endString : Payload} (hdash : '-' ∉ startString) :
    parse (bytesUnit ++ ('=' :: (startString ++ ('-' :: endString)))) =
      if startString = [] then parseSuffix endString else parseInterval startString endString := by
  have hunit : ∀ c ∈ bytesUnit, (c != '=') = true := List.all_eq_true.mp (by decide)
  have hequals : ∀ c ∈ ('=' :: (startString ++ ('-' :: endString))).head?, (c != '=') = false := by
    intro c hc
    cases hc
    rfl
  have hstart : ∀ c ∈ startString, (c != '-') = true := by
    intro c hc
    rw [bne_iff_ne]
    exact fun heq => hdash (heq ▸ hc)
  have hdashes : ∀ c ∈ ('-' :: endString).head?, (c != '-') = false := by
    intro c hc
    cases hc
    rfl
  have hbytes := Text.span_append hunit hequals
  have hcut := Text.span_append hstart hdashes
  have hin : ¬ '=' ∉ bytesUnit ++ ('=' :: (startString ++ ('-' :: endString))) := by simp
  have hinner : '-' ∈ startString ++ ('-' :: endString) := by simp
  rw [parse, if_neg hin, hbytes.1, hbytes.2]
  simp only [ne_eq, not_true_eq_false, if_false, List.tail_cons, hcut.1, hcut.2, hinner, if_true]

end Range

namespace ServerSession

variable {file : List UInt8} {rangeHeader : Payload} {s : ServerSession}

theorem decimal_inj {m n : Int} (h : Text.decimal m = Text.decimal n) : m = n := by
  have hread := congrArg Text.leadingInt h
  rw [Text.leadingInt_decimal, Text.leadingInt_decimal] at hread
  exact Option.some.inj hread

@[simp] theorem asyncUpload_range : (asyncUpload file rangeHeader).range = .parse rangeHeader := by
  rw [asyncUpload]
  dsimp only
  split <;> rfl

theorem asyncUpload_size (rangeHeader : Payload) (hsize : file.length < 2 ^ 31) :
    (asyncUpload file rangeHeader).size = file.length := by
  have hint : (asyncUpload file rangeHeader).size = toInt32 file.length := by
    simp only [asyncUpload, apply_ite size, ite_self]
  rw [hint]
  exact toInt32_of_isInt32 ⟨by omega, by omega⟩

@[simp] theorem asyncUpload_body : (asyncUpload file rangeHeader).body = [] := by
  rw [asyncUpload]
  dsimp only
  split <;> rfl

@[simp] theorem asyncUpload_reads : (asyncUpload file rangeHeader).reads = [] := by
  rw [asyncUpload]
  dsimp only
  split <;> rfl

/-- The position and the offset, unless the start is negative. -/
theorem asyncUpload_at (hstart : 0 ≤ (asyncUpload file rangeHeader).getStart) :
    (asyncUpload file rangeHeader).pos = (asyncUpload file rangeHeader).getStart ∧
      (asyncUpload file rangeHeader).fd = some (asyncUpload file rangeHeader).getStart.toNat := by
  have hsame : (asyncUpload file rangeHeader).getStart =
      getStart ⟨-1, toInt32 file.length, some 0, .parse rangeHeader, [], []⟩ := by
    rw [asyncUpload]
    dsimp only
    split <;> rfl
  rw [hsame] at hstart
  rw [hsame, asyncUpload, if_neg (Int.not_lt.mpr hstart)]
  exact ⟨rfl, rfl⟩

/-- The interval to be sent is in the file. -/
def InFile (s : ServerSession) : Prop :=
  0 ≤ s.getStart ∧ s.getStart ≤ s.getEnd ∧ s.getEnd ≤ s.size

theorem inFile_or_behind (hsize : file.length < 2 ^ 31)
    (h : (Range.parse rangeHeader).InOrder file.length) :
    (asyncUpload file rangeHeader).InFile ∨
      (file.length : Int) < (asyncUpload file rangeHeader).getStart := by
  have hvalid := Range.valid_parse rangeHeader
  rw [InFile, getStart, getEnd, asyncUpload_range, asyncUpload_size _ hsize]
  rw [Range.InOrder] at h
  cases hsuffix : (Range.parse rangeHeader).startIsSuffix with
  | true =>
      rw [hsuffix, if_pos rfl] at h
      have hint : toInt32 (file.length - (Range.parse rangeHeader).start) =
          file.length - (Range.parse rangeHeader).start :=
        toInt32_of_isInt32 ⟨by omega, by omega⟩
      simp only [if_true, hint]
      omega
  | false =>
      have hnonneg := hvalid.nonneg hsuffix
      rw [hsuffix, if_neg Bool.false_ne_true] at h
      simp only [Bool.false_eq_true, if_false]
      split_ifs with hstop hlong <;> omega

theorem sending_asyncUpload (h : (asyncUpload file rangeHeader).InFile) :
    Sending file (asyncUpload file rangeHeader).getStart.toNat
      (asyncUpload file rangeHeader).getEnd.toNat (asyncUpload file rangeHeader) := by
  rcases h with ⟨hstart, hle, -⟩
  rcases asyncUpload_at hstart with ⟨hpos, hfd⟩
  refine ⟨by omega, fun offset hopen => ?_, fun hclosed => ?_, ?_⟩
  · rw [hfd] at hopen
    cases hopen
    refine ⟨by omega, Nat.le_refl _, by omega, ?_⟩
    simp [slice]
  · rw [hfd] at hclosed
    cases hclosed
  · simp

theorem behind_asyncUpload (h : (file.length : Int) < (asyncUpload file rangeHeader).getStart) :
    Behind file (asyncUpload file rangeHeader) := by
  have hstart : 0 ≤ (asyncUpload file rangeHeader).getStart := by omega
  have hfd := (asyncUpload_at hstart).2
  refine ⟨fun offset hopen => ?_, asyncUpload_body, by simp⟩
  rw [hfd] at hopen
  cases hopen
  omega

/-! ### Responses to ranges in order -/

theorem getSendSize_of_inFile (hsize : file.length < 2 ^ 31)
    (h : (asyncUpload file rangeHeader).InFile) :
    (asyncUpload file rangeHeader).getSendSize =
      ((asyncUpload file rangeHeader).getEnd.toNat -
        (asyncUpload file rangeHeader).getStart.toNat : Nat) := by
  have hn := asyncUpload_size rangeHeader hsize
  rcases h with ⟨hstart, hle, hend⟩
  rw [getSendSize, if_neg (by omega), toInt32_of_isInt32 ⟨by omega, by omega⟩]
  omega

theorem announced_of_inOrder (hsize : file.length < 2 ^ 31)
    (h : (Range.parse rangeHeader).InOrder file.length) :
    ∃ length : Nat, (asyncUpload file rangeHeader).getSendSize = length ∧
      Sends file (asyncUpload file rangeHeader) fun body => body.length = length := by
  rcases inFile_or_behind hsize h with hin | hbehind
  · refine ⟨_, getSendSize_of_inFile hsize hin, ?_⟩
    have hn := asyncUpload_size rangeHeader hsize
    have hstop : (asyncUpload file rangeHeader).getEnd.toNat ≤ file.length := by
      have hend := hin.2.2
      omega
    refine sends_of_kept (fun _ => kept_sending hsize hstop) (sending_asyncUpload hin) ?_
    intro s hs hclosed
    rw [hs.closed hclosed, length_slice hstop]
  · refine ⟨0, ?_, ?_⟩
    · have hn := asyncUpload_size rangeHeader hsize
      rw [getSendSize, if_pos (by omega)]
      rfl
    · refine sends_of_kept (fun _ => kept_behind) (behind_asyncUpload hbehind) ?_
      intro s hs _
      rw [hs.body]
      rfl

theorem within_of_inOrder (hsize : file.length < 2 ^ 31)
    (h : (Range.parse rangeHeader).InOrder file.length) (burst capacities : Nat → Nat) (k : Nat) :
    ∀ read ∈ ((asyncUpload file rangeHeader).afterWrites file burst capacities k).reads,
      read.2 = 0 ∨ (read.1 + read.2 : Int) ≤ (asyncUpload file rangeHeader).getEnd := by
  intro read hread
  rcases inFile_or_behind hsize h with hin | hbehind
  · have hn := asyncUpload_size rangeHeader hsize
    rcases hin with ⟨hstart, hle, hend⟩
    have hstop : (asyncUpload file rangeHeader).getEnd.toNat ≤ file.length := by omega
    have hsending := sending_asyncUpload ⟨hstart, hle, hend⟩
    have hread := ((kept_sending hsize hstop).afterWrites hsending k).within read hread
    omega
  · exact .inl ((kept_behind.afterWrites (behind_asyncUpload hbehind) k).within read hread)

/-! ### The ranges that can be asked for -/

theorem Numeral.no_dash {text : Payload} (h : Numeral text) : '-' ∉ text := by
  intro hmem
  have hdigit := h.2 '-' hmem
  revert hdigit
  decide

theorem parse_between {a b : Payload} (ha : Numeral a) (hb : Numeral b)
    (hint : numeralValue a < 2 ^ 31) :
    Range.parse (ByteRange.between a b).header =
      ⟨numeralValue a, if numeralValue b < 2 ^ 31 then toInt32 (numeralValue b + 1) else -1, false,
        .PartialContent⟩ := by
  have hparse : Range.parse (ByteRange.between a b).header = Range.parseInterval a b := by
    rw [ByteRange.header, Range.parse_bytes ha.no_dash, if_neg ha.1]
  rw [hparse, Range.parseInterval, stoi_numeral ha, if_pos hint, stoi_numeral hb]
  split_ifs <;> rfl

theorem parse_start {a : Payload} (ha : Numeral a) (hint : numeralValue a < 2 ^ 31) :
    Range.parse (ByteRange.start a).header = ⟨numeralValue a, -1, false, .PartialContent⟩ := by
  have hparse : Range.parse (ByteRange.start a).header = Range.parseInterval a [] := by
    rw [ByteRange.header, Range.parse_bytes ha.no_dash, if_neg ha.1]
  rw [hparse, Range.parseInterval, stoi_numeral ha, if_pos hint, stoi_nil]

theorem parse_suffix {k : Payload} (hk : Numeral k) :
    Range.parse (ByteRange.suffix k).header =
      if numeralValue k < 2 ^ 31 then ⟨numeralValue k, -1, true, .PartialContent⟩
      else ⟨0, -1, false, .PartialContent⟩ := by
  have hparse : Range.parse (ByteRange.suffix k).header = Range.parseSuffix k :=
    Range.parse_bytes (List.not_mem_nil)
  rw [hparse, Range.parseSuffix, stoi_numeral hk]
  split_ifs <;> rfl

/-- The interval that is asked for is the one that is sent. -/
theorem interval_of_header (hsize : file.length < 2 ^ 31) {asked : ByteRange}
    (hasked : asked.Satisfiable file.length)
    (h : (Range.parse asked.header).InOrder file.length) :
    (asyncUpload file asked.header).getStart = asked.first file.length ∧
      (asyncUpload file asked.header).getEnd = asked.stop file.length := by
  rw [getStart, getEnd, asyncUpload_range, asyncUpload_size _ hsize]
  rw [Range.InOrder] at h
  cases asked with
  | between a b =>
      rcases hasked with ⟨ha, hb, hle, hlt⟩
      rw [parse_between ha hb (hlt.trans hsize)] at h ⊢
      simp only [ByteRange.first, ByteRange.stop, Bool.false_eq_true, if_false, true_and] at h ⊢
      by_cases hint : numeralValue b < 2 ^ 31
      · rw [if_pos hint] at h ⊢
        by_cases hlast : numeralValue b + 1 < 2 ^ 31
        · have hstop : toInt32 ((numeralValue b : Int) + 1) = numeralValue b + 1 :=
            toInt32_of_isInt32 ⟨by omega, by omega⟩
          rw [hstop] at h ⊢
          split_ifs <;> omega
        · -- The end overflows.
          have hvalue : (numeralValue b : Int) + 1 = 2 ^ 31 := by omega
          have hstop : toInt32 ((numeralValue b : Int) + 1) = -2 ^ 31 := by
            rw [hvalue]
            decide
          rw [hstop] at h
          omega
      · rw [if_neg hint, if_pos rfl]
        omega
  | start a =>
      rcases hasked with ⟨ha, hlt⟩
      rw [parse_start ha (hlt.trans hsize)]
      exact ⟨rfl, rfl⟩
  | suffix k =>
      rcases hasked with ⟨hk, hpos⟩
      rw [parse_suffix hk] at h ⊢
      by_cases hint : numeralValue k < 2 ^ 31
      · rw [if_pos hint] at h ⊢
        simp only [ByteRange.first, ByteRange.stop, if_true, and_true] at h ⊢
        rw [toInt32_of_isInt32 ⟨by omega, by omega⟩]
        omega
      · rw [if_neg hint]
        simp only [ByteRange.first, ByteRange.stop, Bool.false_eq_true, if_false, if_true, and_true]
        omega

theorem first_le_stop {asked : ByteRange} (hasked : asked.Satisfiable file.length) :
    asked.first file.length ≤ asked.stop file.length ∧ asked.stop file.length ≤ file.length := by
  cases asked with
  | between a b =>
      rcases hasked with ⟨-, -, hle, hlt⟩
      simp only [ByteRange.first, ByteRange.stop]
      omega
  | start a => exact ⟨Nat.le_of_lt hasked.2, Nat.le_refl _⟩
  | suffix k => exact ⟨Nat.sub_le _ _, Nat.le_refl _⟩

theorem named_of_inOrder (hsize : file.length < 2 ^ 31) {asked : ByteRange}
    (hasked : asked.Satisfiable file.length)
    (h : (Range.parse asked.header).InOrder file.length) (date server : Payload)
    (responseHeaders : List Field) :
    ((asyncUpload file asked.header).onConnect date server responseHeaders).header.get
        CONTENT_RANGE =
      contentRange (asked.first file.length) ((asked.stop file.length : Int) - 1) file.length ∧
      Sends file (asyncUpload file asked.header) fun body =>
        body = slice file (asked.first file.length) (asked.stop file.length) := by
  have hn := asyncUpload_size asked.header hsize
  rcases interval_of_header hsize hasked h with ⟨hfirst, hend⟩
  rcases first_le_stop hasked with ⟨hle, hstop⟩
  constructor
  · rw [get_contentRange, hfirst, hend, hn, toInt32_of_isInt32 ⟨by omega, by omega⟩]
  · have hin : (asyncUpload file asked.header).InFile := by
      rw [InFile, hfirst, hend, hn]
      omega
    have hsending := sending_asyncUpload hin
    rw [hfirst, hend, Int.toNat_natCast, Int.toNat_natCast] at hsending
    exact sends_of_kept (fun _ => kept_sending hsize hstop) hsending fun s hs => hs.closed

/-! ### Responses to other ranges -/

/-- The length that is announced is not that of the body. -/
theorem not_sends_of_not_inOrder (hsize : file.length < 2 ^ 31)
    (h : ¬ (Range.parse rangeHeader).InOrder file.length) {length : Nat}
    (hlength : (asyncUpload file rangeHeader).getSendSize = length) :
    ¬ Sends file (asyncUpload file rangeHeader) fun body => body.length = length := by
  intro hsends
  have hvalid := Range.valid_parse rangeHeader
  have hn := asyncUpload_size rangeHeader hsize
  have hstart := hvalid.start
  rw [Range.InOrder] at h
  rw [getSendSize, getStart, getEnd, asyncUpload_range, hn] at hlength
  cases hsuffix : (Range.parse rangeHeader).startIsSuffix with
  | true =>
      -- No more is sent than the file has, and the suffix is longer or the length negative.
      have hmore : Sends file (asyncUpload file rangeHeader) fun body =>
          body.length ≤ file.length :=
        sends_of_kept (fun _ => kept_length) (by simp) fun s hs _ => hs.1
      rcases hsends.exists_body hmore with ⟨body, hbody, hle⟩
      rw [hsuffix, if_pos rfl] at h
      rw [hsuffix, if_pos rfl, if_pos rfl] at hlength
      rcases hstart with ⟨hlow, hhigh⟩
      simp only [toInt32, Int.bmod_def] at hlength
      split_ifs at hlength <;> omega
  | false =>
      -- Nothing is sent, and the length is not zero.
      have hnonneg := hvalid.nonneg hsuffix
      have hstop := hvalid.stop
      rw [hsuffix, if_neg Bool.false_ne_true] at h
      rw [hsuffix, if_neg Bool.false_ne_true, if_neg Bool.false_ne_true] at hlength
      have hgetStart :
          (asyncUpload file rangeHeader).getStart = (Range.parse rangeHeader).start := by
        rw [getStart, asyncUpload_range, hsuffix, if_neg Bool.false_ne_true]
      have hgetEnd : (asyncUpload file rangeHeader).getEnd = (Range.parse rangeHeader).stop := by
        rw [getEnd, asyncUpload_range, hn, hsuffix, if_neg Bool.false_ne_true, if_neg (by omega),
          if_neg (by omega)]
      have hpos := (asyncUpload_at (hgetStart ▸ hnonneg)).1
      have hended : (asyncUpload file rangeHeader).getEnd ≤ (asyncUpload file rangeHeader).pos := by
        rw [hpos, hgetStart, hgetEnd]
        omega
      have hnothing : Sends file (asyncUpload file rangeHeader) fun body => body = [] :=
        sends_of_kept (fun _ => kept_ended) ⟨hended, asyncUpload_body⟩ fun s hs _ => hs.2
      rcases hsends.exists_body hnothing with ⟨body, hbody, hnil⟩
      rw [hnil, List.length_nil] at hbody
      rcases hstart with ⟨hlow, hhigh⟩
      rcases hstop with ⟨hstopLow, hstopHigh⟩
      simp only [toInt32, Int.bmod_def] at hlength
      split_ifs at hlength <;> omega

theorem Responds.sends {date server : Payload} {responseHeaders : List Field}
    (h : Responds file rangeHeader date server responseHeaders) :
    ∃ length : Nat, (asyncUpload file rangeHeader).getSendSize = length ∧
      Sends file (asyncUpload file rangeHeader) fun body => body.length = length := by
  rcases h.announced with ⟨length, hlength, hsends⟩
  rw [get_contentLength] at hlength
  exact ⟨length, decimal_inj hlength, hsends⟩

/-- The responses to a range are right if and only if the range is in order. -/
theorem responds_iff (file : List UInt8) (hsize : file.length < 2 ^ 31)
    (rangeHeader date server : Payload) (responseHeaders : List Field) :
    Responds file rangeHeader date server responseHeaders ↔
      (Range.parse rangeHeader).InOrder file.length := by
  constructor
  · intro h
    by_contra hnot
    rcases h.sends with ⟨length, hlength, hsends⟩
    exact not_sends_of_not_inOrder hsize hnot hlength hsends
  · intro h
    constructor
    · rcases announced_of_inOrder hsize h with ⟨length, hlength, hsends⟩
      refine ⟨length, ?_, hsends⟩
      rw [get_contentLength, hlength]
    · intro asked hheader hasked
      subst hheader
      exact named_of_inOrder hsize hasked h date server responseHeaders
    · exact within_of_inOrder hsize h

def tenBytes : List UInt8 := List.replicate 10 7

theorem responds_tenBytes : Responds tenBytes "bytes=2-5".toList [] [] [] :=
  (responds_iff tenBytes (by decide) "bytes=2-5".toList [] [] []).mpr (by decide +kernel)

/-- A suffix that is longer than the file is announced with its own length. -/
theorem not_responds_longSuffix : ¬ Responds tenBytes "bytes=-20".toList [] [] [] := by
  intro h
  rcases h.sends with ⟨length, hlength, hsends⟩
  exact not_sends_of_not_inOrder (by decide) (by decide +kernel) hlength hsends

end ServerSession

end CoolOnline.Http
