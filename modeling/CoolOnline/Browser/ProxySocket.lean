import CoolOnline.Wsd.ProxyProtocol

/-! # The browser's end of a proxied socket

`ProxySocket` of `browser/js/global.js`. When the timer calls `doSend` is not modelled, nor are
errors, after which the socket is closed.
-/

namespace CoolOnline.Proxy

open HexUtil Reordering

structure ProxySocket where
  /-- The session has an id. -/
  opened : Bool
  msgInflight : Nat
  outSerial : Nat
  sendQueue : Payload
  serialQueue : OrderedMap Nat Message
  /-- What `onmessage` has been called with. -/
  received : List Message

/-- How the number in a line is read: there is none, no line break comes, or it is read; NaN is no
number. -/
inductive NumberRead
  | missing
  | endless
  | number (n : Option Nat) (behind : Payload)
deriving DecidableEq, Repr

/-- `parseInt` with base 16, of a text without a sign. -/
def parseInt (numStr : Payload) : Option Nat :=
  match hexDigits (numStr.dropWhile Text.isSpace) with
  | [] => none
  | digits => some (hexValue digits)

def readNumber (arr : Payload) : NumberRead :=
  if arr.head? ≠ some '0' ∧ arr.tail.head? ≠ some 'x' then .missing
  else
    match Text.cutLine (arr.drop 2) with
    | none => .endless
    | some (numStr, behind) => .number (parseInt numStr) behind

namespace ProxySocket

def start : ProxySocket := ⟨false, 0, 1, [], .empty, []⟩

variable (s : ProxySocket)

/-- `this.inSerial` is set here and never read. -/
def processBufferedMessages (expectedSerial : Nat) : ProxySocket :=
  let result := drain s.serialQueue.entries.length expectedSerial s.serialQueue
  { s with serialQueue := result.2.1, received := s.received ++ result.2.2 }

/-- A message is put into the map and looked for there. Where the serial is NaN it is found, and
nothing is next. -/
def receive (serial : Option Nat) (m : Message) : ProxySocket :=
  match serial with
  | none => { s with received := s.received ++ [m] }
  | some serial =>
      { s with serialQueue := s.serialQueue.set serial m }.processBufferedMessages serial

/-- There is no result when the loop does not end. -/
def parseIncomingArray : Nat → ProxySocket → Payload → Option ProxySocket
  | 0, s, _ => some s
  | turns + 1, s, arr =>
      if arr.length < 4 then some s
      else if arr.head? ≠ some 'T' ∧ arr.head? ≠ some 'B' then some s
      else
        match readNumber arr.tail with
        | .missing => some s
        | .endless => none
        | .number serial behind =>
            match readNumber behind with
            | .missing => some s
            | .endless => none
            | .number size content =>
                let text := arr.head? == some 'T'
                match size with
                | none => some (s.receive serial ⟨text, []⟩)
                | some size =>
                    parseIncomingArray turns (s.receive serial ⟨text, content.take size⟩)
                      (content.drop (size + 1))

/-- The `load` event of a response, and `loadend`. -/
def load (data : Payload) : Option ProxySocket :=
  (if data = [] then some s else parseIncomingArray data.length s data).map fun s =>
    { s with msgInflight := s.msgInflight - 1 }

def send (msg : Payload) : ProxySocket :=
  { s with
    sendQueue := s.sendQueue ++ frameText 'B' s.outSerial msg
    outSerial := s.outSerial + 1 }

/-- The body of the request, if one is sent. -/
def doSend : ProxySocket × Option Payload :=
  if !s.opened then (s, none)
  else if 4 ≤ s.msgInflight then (s, none)
  else ({ s with sendQueue := [], msgInflight := s.msgInflight + 1 }, some (s.sendQueue ++ ['.']))

end ProxySocket

/-! ## A response is read -/

section

variable {s : ProxySocket} {m : Message} {serial turns : Nat} {rest : Payload}

theorem hexDigits_of_digits {digits : Payload} (h : ∀ c ∈ digits, isHexDigit c = true) :
    hexDigits digits = digits := by
  have hx : isHexDigit 'x' = false := by decide
  have hX : isHexDigit 'X' = false := by decide
  rw [hexDigits.eq_def]
  split
  · rw [h 'x' (by simp)] at hx
    cases hx
  · rw [h 'X' (by simp)] at hX
    cases hX
  · have htake : (digits ++ []).takeWhile isHexDigit = digits ++ [].takeWhile isHexDigit :=
      List.takeWhile_append_of_pos h
    simpa using htake

theorem parseInt_toDigits (n : Nat) : parseInt (Nat.toDigits 16 n) = some n := by
  obtain ⟨hvalue, hdigits⟩ := hexValue_toDigits n
  cases htext : Nat.toDigits 16 n with
  | nil => exact absurd htext Nat.toDigits_ne_nil
  | cons c digits =>
      rw [htext] at hvalue hdigits
      have hspace := isSpace_of_isHexDigit (hdigits c List.mem_cons_self)
      have hdrop : (c :: digits).dropWhile Text.isSpace = c :: digits := by
        rw [List.dropWhile_cons, if_neg (by simp [hspace])]
      rw [parseInt, hdrop, hexDigits_of_digits hdigits]
      exact congrArg some hvalue

theorem readNumber_hexNumber (n : Nat) (rest : Payload) :
    readNumber (hexNumber n ++ ('\n' :: rest)) = .number (some n) rest := by
  have hline : '\n' ∉ Nat.toDigits 16 n := fun hmem =>
    lineBreak_not_mem_hexNumber n (List.mem_cons_of_mem _ (List.mem_cons_of_mem _ hmem))
  have hdrop : (hexNumber n ++ ('\n' :: rest)).drop 2 = Nat.toDigits 16 n ++ ('\n' :: rest) := rfl
  rw [readNumber, if_neg (fun h => h.1 rfl), hdrop, Text.cutLine_append hline]
  simp only [parseInt_toDigits]

theorem parseIncomingArray_bytes (s : ProxySocket) (m : Message) (serial : Nat) (rest : Payload) :
    ProxySocket.parseIncomingArray (turns + 1) s (m.bytes serial ++ rest) =
      ProxySocket.parseIncomingArray turns (s.receive (some serial) m) rest := by
  obtain ⟨text, data⟩ := m
  have hlong : ¬ ((Message.mk text data).bytes serial ++ rest).length < 4 := by
    simp only [Message.bytes, frameText, hexNumber, List.length_append, List.length_cons]
    omega
  have htail : ((Message.mk text data).bytes serial ++ rest).tail =
      hexNumber serial ++ ('\n' :: (hexNumber data.length ++ ('\n' :: (data ++ ('\n' :: rest))))) := by
    simp [Message.bytes, frameText]
  have hhead : ((Message.mk text data).bytes serial ++ rest).head? =
      some (if text then 'T' else 'B') := rfl
  have htake : (data ++ ('\n' :: rest)).take data.length = data := List.take_left
  have hdrop : (data ++ ('\n' :: rest)).drop (data.length + 1) = rest := by
    rw [← List.drop_drop, List.drop_left]
    rfl
  rw [ProxySocket.parseIncomingArray, if_neg hlong, hhead, htail, readNumber_hexNumber]
  simp only [readNumber_hexNumber, htake, hdrop]
  cases text <;> rfl

/-- Nothing is kept where nothing was: a message that comes is handled, whatever its serial. -/
theorem receive_of_empty (h : s.serialQueue = .empty) (serial : Nat) (m : Message) :
    s.receive (some serial) m = { s with received := s.received ++ [m] } := by
  obtain ⟨opened, msgInflight, outSerial, sendQueue, serialQueue, received⟩ := s
  have hempty : serialQueue = .empty := h
  subst hempty
  have hset : (OrderedMap.empty : OrderedMap Nat Message).set serial m =
      ⟨[(serial, m)], List.nodup_singleton _⟩ := rfl
  have hget : (⟨[(serial, m)], List.nodup_singleton _⟩ : OrderedMap Nat Message).get serial =
      some m := if_pos rfl
  have hdelete : (⟨[(serial, m)], List.nodup_singleton _⟩ : OrderedMap Nat Message).delete serial =
      .empty := by
    simp [OrderedMap.delete, OrderedMap.filterKeys, OrderedMap.empty]
  simp only [ProxySocket.receive, ProxySocket.processBufferedMessages, hset, List.length_singleton]
  rw [drain_of_some 0 hget, hdelete]
  rfl

/-- Messages with consecutive serials, as the body of a response. -/
def bytesFrom : Nat → List Message → Payload
  | _, [] => []
  | serial, m :: ms => m.bytes serial ++ bytesFrom (serial + 1) ms

theorem bytesFrom_append (serial : Nat) (ms ms' : List Message) :
    bytesFrom serial (ms ++ ms') = bytesFrom serial ms ++ bytesFrom (serial + ms.length) ms' := by
  induction ms generalizing serial with
  | nil => rfl
  | cons m ms ih =>
      have hserial : serial + 1 + ms.length = serial + (m :: ms).length := by
        rw [List.length_cons]
        omega
      rw [List.cons_append, bytesFrom, bytesFrom, ih, hserial, List.append_assoc]

theorem bytesFrom_eq_nil {ms : List Message} (h : bytesFrom serial ms = []) : ms = [] := by
  cases ms with
  | nil => rfl
  | cons m ms => cases h

/-- A response is handled message by message, whatever the serials are. -/
theorem parseIncomingArray_bytesFrom {ms : List Message} (h : s.serialQueue = .empty)
    (hturns : (bytesFrom serial ms).length ≤ turns) :
    ProxySocket.parseIncomingArray turns s (bytesFrom serial ms) =
      some { s with received := s.received ++ ms } := by
  induction ms generalizing s serial turns with
  | nil =>
      rw [List.append_nil]
      cases turns with
      | zero => rfl
      | succ turns => rfl
  | cons m ms ih =>
      have hpos : 0 < (m.bytes serial).length := Nat.succ_pos _
      rw [bytesFrom, List.length_append] at hturns
      obtain ⟨turns, rfl⟩ : ∃ n, turns = n + 1 := ⟨turns - 1, by omega⟩
      have hrest : ({ s with received := s.received ++ [m] } : ProxySocket).serialQueue = .empty := h
      rw [bytesFrom, parseIncomingArray_bytes, receive_of_empty h, ih hrest (by omega)]
      simp only [List.append_assoc, List.singleton_append]

theorem load_bytesFrom {ms : List Message} (h : s.serialQueue = .empty) (serial : Nat) :
    s.load (bytesFrom serial ms) =
      some { s with msgInflight := s.msgInflight - 1, received := s.received ++ ms } := by
  rw [ProxySocket.load]
  split
  · rename_i hnil
    rw [bytesFrom_eq_nil hnil, List.append_nil]
    rfl
  · rw [parseIncomingArray_bytesFrom h (Nat.le_refl _)]
    rfl

/-- What is to be sent is not touched by what comes. -/
theorem parseIncomingArray_keeps {s' : ProxySocket} {arr : Payload}
    (h : ProxySocket.parseIncomingArray turns s arr = some s') :
    s'.sendQueue = s.sendQueue ∧ s'.outSerial = s.outSerial := by
  have hreceive : ∀ (s : ProxySocket) (serial : Option Nat) (m : Message),
      (s.receive serial m).sendQueue = s.sendQueue ∧ (s.receive serial m).outSerial = s.outSerial := by
    intro s serial m
    cases serial <;> exact ⟨rfl, rfl⟩
  induction turns generalizing s arr with
  | zero =>
      cases h
      exact ⟨rfl, rfl⟩
  | succ turns ih =>
      rw [ProxySocket.parseIncomingArray] at h
      split_ifs at h
      · cases h
        exact ⟨rfl, rfl⟩
      · cases h
        exact ⟨rfl, rfl⟩
      · split at h
        · cases h
          exact ⟨rfl, rfl⟩
        · cases h
        · split at h
          · cases h
            exact ⟨rfl, rfl⟩
          · cases h
          · simp only at h
            split at h
            · cases h
              exact hreceive _ _ _
            · obtain ⟨hqueue, hserial⟩ := ih h
              rw [hqueue, hserial]
              exact hreceive _ _ _

theorem load_keeps {s' : ProxySocket} {data : Payload} (h : s.load data = some s') :
    s'.sendQueue = s.sendQueue ∧ s'.outSerial = s.outSerial := by
  rw [ProxySocket.load] at h
  obtain ⟨s₁, hread, rfl⟩ := Option.map_eq_some_iff.mp h
  split at hread
  · cases hread
    exact ⟨rfl, rfl⟩
  · have hkeeps := parseIncomingArray_keeps hread
    exact hkeeps

end

end CoolOnline.Proxy
