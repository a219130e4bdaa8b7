import CoolOnline.Library.Reordering
import CoolOnline.Common.HexUtil

/-! # The server's end of a proxied socket

`ProxyProtocolHandler` of `wsd/ProxyProtocol.cpp`: messages are framed, numbered, and carried by the
bodies of HTTP requests and responses. Nothing is ever put into `_outSockets`, so that what is
written waits in the queue for the next request.
-/

namespace CoolOnline.Proxy

open HexUtil Reordering

/-! ## Frames -/

/-- A number as both ends write it. -/
def hexNumber (n : Nat) : Payload := '0' :: 'x' :: Nat.toDigits 16 n

/-- A type, serial and length in lines of their own, and the content. -/
def frameText (type : Char) (serial : Nat) (data : Payload) : Payload :=
  type :: (hexNumber serial ++ ('\n' :: (hexNumber data.length ++ ('\n' :: (data ++ ['\n'])))))

/-- The digits of a number, behind `0x`. -/
def hexDigits : Payload → Payload
  | '0' :: 'x' :: rest => rest.takeWhile isHexDigit
  | '0' :: 'X' :: rest => rest.takeWhile isHexDigit
  | text => text.takeWhile isHexDigit

/-- `strtoull` with base 16, of numbers that fit. -/
def strtoull (text : Payload) : Nat :=
  match text.dropWhile Text.isSpace with
  | '+' :: rest => hexValue (hexDigits rest)
  | '-' :: rest => (2 ^ 64 - hexValue (hexDigits rest)) % 2 ^ 64
  | rest => hexValue (hexDigits rest)

/-- A message for the browser, which is text or not. -/
structure Message where
  text : Bool
  data : Payload
deriving DecidableEq, Repr

/-- `Message::Message`. -/
def Message.bytes (m : Message) (serial : Nat) : Payload :=
  frameText (if m.text then 'T' else 'B') serial m.data

/-! ## The handler -/

structure ProxyProtocolHandler where
  serialQueue : OrderedMap Nat Payload
  writeQueue : List Payload
  inSerial : Nat
  outSerial : Nat
  /-- What the message handler has been given. -/
  handled : List Payload

namespace ProxyProtocolHandler

def start : ProxyProtocolHandler := ⟨.empty, [], 1, 1, []⟩

variable (h : ProxyProtocolHandler)

/-- Every turn takes a message out of the queue. -/
def processBufferedMessages : ProxyProtocolHandler :=
  let result := drain h.serialQueue.entries.length h.inSerial h.serialQueue
  { h with inSerial := result.1, serialQueue := result.2.1, handled := h.handled ++ result.2.2 }

/-- A message has come. -/
def receive (serial : Nat) (data : Payload) : ProxyProtocolHandler :=
  { h with serialQueue := h.serialQueue.set serial data }.processBufferedMessages

/-- `writeQueue` gets a message; there is no socket to flush it to. -/
def sendMessage (m : Message) : ProxyProtocolHandler :=
  { h with writeQueue := h.writeQueue ++ [m.bytes h.outSerial], outSerial := h.outSerial + 1 }

/-- `flushQueueTo`, which lets the message handler write what it has first: the body of the
response, which is empty if there is nothing to write. -/
def flushQueueTo (queued : List Message) : ProxyProtocolHandler × Payload :=
  let h := queued.foldl sendMessage h
  ({ h with writeQueue := [] }, h.writeQueue.flatten)

end ProxyProtocolHandler

/-- `sizeof(lengthStr)`. -/
def lengthStrSize : Nat := 32

/-- The serial, the length and what is behind the two lines of a frame. -/
def cutFrame (frame : Payload) : Option (Payload × Payload × Payload) :=
  (Text.cutLine frame.tail).bind fun serial =>
    (Text.cutLine serial.2).map fun length => (serial.1, length.1, length.2)

def hasCompleteMessage (buffer : Payload) : Bool :=
  if buffer.length < 2 then buffer == ['.']
  else
    match cutFrame buffer with
    | none => false
    | some (_, lengthStr, content) =>
        decide (lengthStr.length < lengthStrSize) &&
          decide (strtoull lengthStr + 1 ≤ content.length)

inductive ParseStatus
  | again
  | complete
  | protocolError
deriving DecidableEq, Repr

/-- The loop over the messages in the buffer: how it ends, and what is left there. -/
def parseEmitIncoming : Nat → ProxyProtocolHandler → Payload →
    ParseStatus × ProxyProtocolHandler × Payload
  | 0, h, buffer => (.again, h, buffer)
  | turns + 1, h, buffer =>
      if buffer = [] then (.again, h, buffer)
      else if !hasCompleteMessage buffer then (.again, h, buffer)
      else if buffer.head? = some '.' then (.complete, h, buffer)
      else if buffer.head? ≠ some 'T' ∧ buffer.head? ≠ some 'B' then (.protocolError, h, buffer)
      else
        match cutFrame buffer with
        | none => (.protocolError, h, buffer) -- There are two lines in a complete message.
        | some (serialStr, lengthStr, content) =>
            let len := strtoull lengthStr
            match content.drop len with
            | '\n' :: behind =>
                parseEmitIncoming turns (h.receive (strtoull serialStr) (content.take len)) behind
            | behind => (.protocolError, h, behind)

/-! ## Frames are read as they are written -/

section

variable {type : Char} {serial n turns : Nat} {data p q rest : Payload}

theorem lineBreak_not_mem_hexNumber (n : Nat) : '\n' ∉ hexNumber n := by
  intro hmem
  rcases List.mem_cons.mp hmem with heq | hmem
  · cases heq
  rcases List.mem_cons.mp hmem with heq | hmem
  · cases heq
  · have hdigit := (hexValue_toDigits n).2 _ hmem
    exact absurd hdigit (by decide)

theorem hexDigits_hexNumber (n : Nat) : hexDigits (hexNumber n) = Nat.toDigits 16 n := by
  have hdigits := (hexValue_toDigits n).2
  show (Nat.toDigits 16 n).takeWhile isHexDigit = Nat.toDigits 16 n
  rw [← List.append_nil (Nat.toDigits 16 n), List.takeWhile_append_of_pos hdigits,
    List.takeWhile_nil]

theorem strtoull_hexNumber (n : Nat) : strtoull (hexNumber n) = n := by
  show hexValue (hexDigits (hexNumber n)) = n
  rw [hexDigits_hexNumber, (hexValue_toDigits n).1]

theorem length_hexNumber_lt (h : n < 2 ^ 64) : (hexNumber n).length < lengthStrSize := by
  have hle : (Nat.toDigits 16 n).length ≤ 16 :=
    (Nat.length_toDigits_le_iff (by decide) (by decide)).mpr h
  rw [hexNumber, List.length_cons, List.length_cons, lengthStrSize]
  omega

theorem cutFrame_frameText (type : Char) (serial : Nat) (data rest : Payload) :
    cutFrame (frameText type serial data ++ rest) =
      some (hexNumber serial, hexNumber data.length, data ++ ('\n' :: rest)) := by
  have htail : (frameText type serial data ++ rest).tail =
      hexNumber serial ++ ('\n' :: (hexNumber data.length ++ ('\n' :: (data ++ ('\n' :: rest))))) := by
    simp [frameText]
  rw [cutFrame, htail, Text.cutLine_append (lineBreak_not_mem_hexNumber serial), Option.bind_some,
    Text.cutLine_append (lineBreak_not_mem_hexNumber data.length), Option.map_some]

theorem hasCompleteMessage_frameText (hdata : data.length < 2 ^ 64) (rest : Payload) :
    hasCompleteMessage (frameText type serial data ++ rest) = true := by
  have hlong : ¬ (frameText type serial data ++ rest).length < 2 := by
    simp only [frameText, List.length_append, List.length_cons]
    omega
  have hlength := length_hexNumber_lt hdata
  rw [hasCompleteMessage, if_neg hlong, cutFrame_frameText]
  simp only [hlength, strtoull_hexNumber, List.length_append, List.length_cons, decide_true,
    Bool.true_and, decide_eq_true_eq]
  omega

/-- A message of which a part is missing is waited for. -/
theorem hasCompleteMessage_of_prefix (htype : type ≠ '.')
    (hp : p <+: frameText type serial data ++ rest)
    (hlength : p.length < (frameText type serial data).length) : hasCompleteMessage p = false := by
  have hframe : (frameText type serial data).length =
      1 + ((hexNumber serial).length + (1 + ((hexNumber data.length).length +
        (1 + (data.length + 1))))) := by
    simp only [frameText, List.length_append, List.length_cons, List.length_nil]
    omega
  cases p with
  | nil => rfl
  | cons c p =>
      have hsplit : frameText type serial data ++ rest = type :: (hexNumber serial ++
          ('\n' :: (hexNumber data.length ++ ('\n' :: (data ++ ('\n' :: rest)))))) := by
        simp [frameText]
      rw [hsplit] at hp
      obtain ⟨rfl, hlines⟩ := List.cons_prefix_cons.mp hp
      rw [hasCompleteMessage]
      split
      · rw [beq_eq_false_iff_ne]
        rintro heq
        exact htype (List.cons.inj heq).1
      · rw [cutFrame, List.tail_cons]
        rcases Text.cutLine_cases (lineBreak_not_mem_hexNumber serial) hlines with
          ⟨hnone, -⟩ | ⟨p, rfl, hline⟩
        · rw [hnone]
          rfl
        rw [Text.cutLine_append (lineBreak_not_mem_hexNumber serial), Option.bind_some]
        rcases Text.cutLine_cases (lineBreak_not_mem_hexNumber data.length) hline with
          ⟨hnone, -⟩ | ⟨p, rfl, -⟩
        · rw [hnone]
          rfl
        rw [Text.cutLine_append (lineBreak_not_mem_hexNumber data.length)]
        simp only [Option.map_some, strtoull_hexNumber, Bool.and_eq_false_iff, decide_eq_false_iff_not]
        right
        simp only [List.length_append, List.length_cons] at hlength
        omega

/-! ## A request in pieces -/

/-- Messages with their serials, as the body of a request. -/
def framesText (items : List (Nat × Payload)) : Payload :=
  items.flatMap fun item => frameText 'B' item.1 item.2

theorem framesText_cons (item : Nat × Payload) (items : List (Nat × Payload)) :
    framesText (item :: items) = frameText 'B' item.1 item.2 ++ framesText items :=
  List.flatMap_cons

/-- The messages have come. -/
def ProxyProtocolHandler.receiveAll (h : ProxyProtocolHandler) (items : List (Nat × Payload)) :
    ProxyProtocolHandler :=
  items.foldl (fun h item => h.receive item.1 item.2) h

theorem parseEmitIncoming_frame (h : ProxyProtocolHandler) (hdata : data.length < 2 ^ 64)
    (behind : Payload) :
    parseEmitIncoming (turns + 1) h (frameText 'B' serial data ++ behind) =
      parseEmitIncoming turns (h.receive serial data) behind := by
  have hcomplete : hasCompleteMessage (frameText 'B' serial data ++ behind) = true :=
    hasCompleteMessage_frameText hdata behind
  have hhead : (frameText 'B' serial data ++ behind).head? = some 'B' := rfl
  have hne : frameText 'B' serial data ++ behind ≠ [] := List.cons_ne_nil _ _
  rw [parseEmitIncoming, if_neg hne, hcomplete, hhead, cutFrame_frameText]
  simp only [Bool.not_true, Bool.false_eq_true, if_false, strtoull_hexNumber, List.drop_left,
    List.take_left]
  rw [if_neg (by decide), if_neg (by decide)]

/-- What has come of a request is handled message by message; the part of a message is kept. -/
theorem parseEmitIncoming_prefix {items : List (Nat × Payload)}
    (hshort : ∀ item ∈ items, item.2.length < 2 ^ 64) (hp : p <+: framesText items ++ ['.'])
    (hturns : p.length < turns) (h : ProxyProtocolHandler) :
    ∃ done left q, items = done ++ left ∧ p = framesText done ++ q ∧
      parseEmitIncoming turns h p =
        (if left = [] ∧ q = ['.'] then .complete else .again, h.receiveAll done, q) := by
  induction items generalizing p turns h with
  | nil =>
      obtain ⟨turns, rfl⟩ : ∃ m, turns = m + 1 := ⟨turns - 1, by omega⟩
      refine ⟨[], [], p, rfl, rfl, ?_⟩
      cases p with
      | nil => rfl
      | cons c p =>
          obtain ⟨rfl, hend⟩ := List.cons_prefix_cons.mp hp
          rw [List.prefix_nil.mp hend]
          rfl
  | cons item items ih =>
      obtain ⟨turns, rfl⟩ : ∃ m, turns = m + 1 := ⟨turns - 1, by omega⟩
      rw [framesText_cons, List.append_assoc] at hp
      rcases Nat.lt_or_ge p.length (frameText 'B' item.1 item.2).length with hlt | hge
      · have hwait := hasCompleteMessage_of_prefix (by decide) hp hlt
        refine ⟨[], item :: items, p, rfl, rfl, ?_⟩
        have hstatus : (if item :: items = [] ∧ p = ['.'] then ParseStatus.complete else .again) =
            .again := if_neg fun hend => List.cons_ne_nil _ _ hend.1
        rw [parseEmitIncoming, hwait, hstatus]
        by_cases hempty : p = []
        · rw [if_pos hempty]
          rfl
        · rw [if_neg hempty]
          rfl
      · obtain ⟨p, rfl⟩ := List.prefix_of_prefix_length_le (List.prefix_append _ _) hp hge
        rw [List.prefix_append_right_inj] at hp
        rw [parseEmitIncoming_frame h (hshort item List.mem_cons_self)]
        have hfuel : p.length < turns := by
          have hpos : 0 < (frameText 'B' item.1 item.2).length := Nat.succ_pos _
          rw [List.length_append] at hturns
          omega
        obtain ⟨done, left, q, rfl, rfl, hparse⟩ :=
          ih (fun i hi => hshort i (List.mem_cons_of_mem item hi)) hp hfuel
            (h.receive item.1 item.2)
        refine ⟨item :: done, left, q, rfl, ?_, hparse⟩
        rw [framesText_cons, List.append_assoc]

end

end CoolOnline.Proxy
