import CoolOnline.Library.Indexed
import CoolOnline.Net.WebSocketReceive

/-! # The indices that WebSocket frames are read with

`handleTCPStream` and `readPayload` of `net/WebSocketHandler.hpp` once more, with every access to
the input buffer and to the payload of a control frame made by index. There is no result where an
index is not below the size of what is read.
-/

namespace CoolOnline.WebSocketHandler

open Streams Indexed

/-! ## Reading by index -/

/-- The length of the payload and of the header before the mask, once they can be read. -/
def readLengthAt (p : Bytes) (p1 : UInt8) : Option (Option (Nat × Nat)) :=
  let payloadLen := (p1 &&& 0x7f).toNat
  if payloadLen = 126 then
    if p.length < 2 + 2 then some none
    else (readRange p 2 2).map fun bytes => some (bigEndian bytes, 4)
  else if payloadLen = 127 then
    if p.length < 2 + 8 then some none
    else (readRange p 2 8).map fun bytes => some (bigEndian bytes, 10)
  else some (some (payloadLen, 2))

/-- `readPayload`, given where the data and the mask are. -/
def readPayloadAt (p : Bytes) (data dataLen : Nat) (mask : Option Nat) (payload : Bytes) :
    Option Bytes :=
  if dataLen = 0 then some payload
  else
    match mask with
    | some mask =>
        ((List.range' 0 dataLen).mapM fun i =>
          p[data + i]?.bind fun b => p[mask + i % 4]?.map fun m => b ^^^ m).map (payload ++ ·)
    | none => (readRange p data dataLen).map (payload ++ ·)

section

variable (isClient isMasking : Bool) (s : WebSocketHandler)

def closeReasonAt (ctrlPayload : Bytes) : Option (Nat × Bytes) :=
  if s.shuttingDown then some (normalClose, [])
  else if ctrlPayload.length = 0 then some (normalClose, [])
  else
    ctrlPayload[0]?.bind fun high => ctrlPayload[1]?.bind fun low =>
      let statusCode := high.toNat * 2 ^ 8 + low.toNat
      if 2 < ctrlPayload.length then
        (readRange ctrlPayload 2 (ctrlPayload.length - 2)).map fun message => (statusCode, message)
      else some (statusCode, [])

def handleControlFrameAt (fin : Bool) (code : WSOpCode) (payloadLen : Nat) (ctrlPayload : Bytes)
    (rest : Bytes) : Option (Turn WebSocketHandler UInt8) :=
  if !fin then some (s.shutdown isMasking protocolError [])
  else if payloadLen > 125 then some (s.shutdown isMasking protocolError [])
  else
    match code with
    | .pong => some (.next s rest)
    | .ping =>
        (readRange ctrlPayload 0 payloadLen).map fun data =>
          .next (s.sendFrame isMasking (0x80 ||| 0x0a) data) rest
    | .close =>
        (s.closeReasonAt ctrlPayload).map fun (statusCode, message) =>
          s.shutdown isMasking statusCode message
    | _ => some (s.shutdown isMasking protocolError [])

/-- What follows the check that the whole frame is there. -/
def handleFrameAt (p : Bytes) (fin : Bool) (code : WSOpCode) (hasMask : Bool) (mask : Option Nat)
    (headerLen payloadLen : Nat) : Option (Turn WebSocketHandler UInt8) :=
  if hasMask && isClient then some (s.shutdown isMasking protocolError [])
  else if code.isControlFrame then
    (readPayloadAt p headerLen payloadLen mask []).bind fun ctrlPayload =>
      (eraseFirst (headerLen + payloadLen) p).bind fun rest =>
        s.handleControlFrameAt isMasking fin code payloadLen ctrlPayload rest
  else if s.inFragmentBlock && code ≠ .continuation then
    some (s.shutdown isMasking protocolError [])
  else if !s.inFragmentBlock && code = .continuation then
    some (s.shutdown isMasking protocolError [])
  else
    (readPayloadAt p headerLen payloadLen mask s.wsPayload).bind fun wsPayload =>
      (eraseFirst (headerLen + payloadLen) p).map fun rest =>
        if fin then
          .next { s with
            wsPayload := []
            inFragmentBlock := false
            handled := s.handled ++ [wsPayload] } rest
        else .next { s with wsPayload := wsPayload, inFragmentBlock := true } rest

/-- What follows where the length of the payload is known. -/
def handleMaskAt (p : Bytes) (p0 p1 : UInt8) (payloadLen headerLen : Nat) :
    Option (Turn WebSocketHandler UInt8) :=
  let hasMask := p1 &&& 0x80 != 0
  let mask := if hasMask then some headerLen else none
  let headerLen := if hasMask then headerLen + 4 else headerLen
  if headerLen > p.length ∨ payloadLen > p.length - headerLen then some .wait
  else
    s.handleFrameAt isClient isMasking p (p0 &&& 0x80 != 0) (.ofNat (p0 &&& 0x0f).toNat) hasMask
      mask headerLen payloadLen

/-- `handleTCPStream`. -/
def handleTCPStreamAt (p : Bytes) : Option (Turn WebSocketHandler UInt8) :=
  if p.length = 0 then some .wait
  else if p.length < 2 then some .wait
  else
    p[0]?.bind fun p0 => p[1]?.bind fun p1 =>
      (readLengthAt p p1).bind fun
        | none => some .wait
        | some (payloadLen, headerLen) =>
            s.handleMaskAt isClient isMasking p p0 p1 payloadLen headerLen

end

/-- A close frame that is not answered before its payload of one byte is read. -/
structure OneByteClose (isClient : Bool) (frame : Frame) : Prop where
  close : frame.code = .close
  fin : frame.fin = true
  notMasked : (frame.hasMask && isClient) = false
  one : frame.payload.length = 1

/-! ## What is read -/

section

variable {isClient isMasking : Bool} {s s' : WebSocketHandler} {beyond : UInt8}
  {p payload rest : Bytes} {data n mask headerLen : Nat} {p0 p1 : UInt8}

theorem readPayloadAt_none (h : data + n ≤ p.length) :
    readPayloadAt p data n none payload = some (payload ++ (p.drop data).take n) := by
  rw [readPayloadAt]
  split
  case isTrue hn => rw [hn, List.take_zero, List.append_nil]
  case isFalse =>
    simp only [readRange_eq h]
    rfl

theorem readPayloadAt_mask (h : data + n ≤ p.length) (hmask : mask + 4 ≤ p.length) :
    readPayloadAt p data n (some mask) payload =
      some (payload ++ applyMask ((p.drop mask).take 4) 0 ((p.drop data).take n)) := by
  have hlength : (applyMask ((p.drop mask).take 4) 0 ((p.drop data).take n)).length = n := by
    rw [applyMask, List.length_mapIdx, List.length_take, List.length_drop]
    omega
  rw [readPayloadAt]
  split
  case isTrue hn =>
    rw [hn, List.take_zero]
    exact congrArg some (List.append_nil payload).symm
  case isFalse =>
    have hread := mapM_range'_eq
      (fun i => p[data + i]?.bind fun b => p[mask + i % 4]?.map fun m => b ^^^ m)
      (applyMask ((p.drop mask).take 4) 0 ((p.drop data).take n)) 0 <| by
        intro i hi
        rw [hlength] at hi
        have hfour : i % 4 < 4 := Nat.mod_lt i (by decide)
        have hbyte : data + i < p.length := by omega
        have hplace : mask + i % 4 < p.length := by omega
        rw [Nat.zero_add, List.getElem?_eq_getElem hbyte, List.getElem?_eq_getElem hplace]
        simp only [applyMask, List.getElem?_mapIdx, List.getElem?_take, hi, if_true,
          List.getElem?_drop, List.getElem?_eq_getElem hbyte, Option.bind_some, Option.map_some,
          Nat.zero_add, List.getD_eq_getElem?_getD, hfour, List.getElem?_eq_getElem hplace,
          Option.getD_some]
    rw [hlength] at hread
    simp only [hread]
    rfl

theorem takeExact_drop (hoff : data ≤ p.length) :
    takeExact n (p.drop data) =
      if p.length < data + n then none else some ((p.drop data).take n, p.drop (data + n)) := by
  rw [takeExact, List.length_drop, List.drop_drop]
  split
  case isTrue hlt => rw [if_pos (by omega)]
  case isFalse hge => rw [if_neg (by omega)]

/-- The length is read where the bytes for it are there. -/
theorem readLengthAt_cases (p0 p1 : UInt8) (head : Bytes) :
    (readLength p1 head = none ∧ readLengthAt (p0 :: p1 :: head) p1 = some none) ∨
      ∃ n headerLen, readLength p1 head = some (n, (p0 :: p1 :: head).drop headerLen) ∧
        headerLen ≤ (p0 :: p1 :: head).length ∧
        readLengthAt (p0 :: p1 :: head) p1 = some (some (n, headerLen)) := by
  have htwo : 2 ≤ (p0 :: p1 :: head).length := by simp
  have htake (k : Nat) := takeExact_drop (n := k) htwo
  change ∀ k, takeExact k head = _ at htake
  rw [readLength, readLengthAt]
  simp only [htake]
  split
  · split
    · exact .inl ⟨rfl, rfl⟩
    case isFalse hge =>
      right
      rw [readRange_eq (Nat.not_lt.mp hge)]
      exact ⟨_, 4, rfl, Nat.not_lt.mp hge, rfl⟩
  · split
    · split
      · exact .inl ⟨rfl, rfl⟩
      case isFalse hge =>
        right
        rw [readRange_eq (Nat.not_lt.mp hge)]
        exact ⟨_, 10, rfl, Nat.not_lt.mp hge, rfl⟩
    · right
      exact ⟨_, 2, rfl, htwo, rfl⟩

/-- A frame that is there, with the indices that its payload is read at. -/
structure FrameAt (p : Bytes) (frame : Frame) (mask : Option Nat) (headerLen : Nat) : Prop where
  fits : headerLen + frame.payload.length ≤ p.length
  readFrame : readFrame p = some (frame, p.drop (headerLen + frame.payload.length))
  readPayload : ∀ payload, readPayloadAt p headerLen frame.payload.length mask payload =
    some (payload ++ frame.payload)

theorem handleMaskAt_cases (isClient isMasking : Bool) (s : WebSocketHandler) (p0 p1 : UInt8)
    (hle : headerLen ≤ p.length) :
    ((readMask (p1 &&& 0x80 != 0) (p.drop headerLen)).bind fun (_, rest) => takeExact n rest) =
          none ∧
        s.handleMaskAt isClient isMasking p p0 p1 n headerLen = some .wait ∨
      ∃ mask maskAt headerLen' data,
        readMask (p1 &&& 0x80 != 0) (p.drop headerLen) = some (mask, p.drop headerLen') ∧
        takeExact n (p.drop headerLen') = some (data, p.drop (headerLen' + n)) ∧
        headerLen' + n ≤ p.length ∧ data.length = n ∧
        (∀ payload, readPayloadAt p headerLen' n maskAt payload =
          some (payload ++ readPayload mask data)) ∧
        s.handleMaskAt isClient isMasking p p0 p1 n headerLen =
          s.handleFrameAt isClient isMasking p (p0 &&& 0x80 != 0) (.ofNat (p0 &&& 0x0f).toNat)
            (p1 &&& 0x80 != 0) maskAt headerLen' n := by
  rw [readMask, handleMaskAt]
  generalize (p1 &&& 0x80 != 0) = hasMask
  cases hasMask with
  | false =>
      simp only [Bool.false_eq_true, if_false, Option.bind_some]
      rw [takeExact_drop hle]
      split
      case isTrue hshort =>
        left
        rw [if_pos (by omega)]
        exact ⟨rfl, rfl⟩
      case isFalse hlong =>
        right
        rw [if_neg (by omega)]
        exact ⟨none, none, headerLen, (p.drop headerLen).take n, rfl, by
          rw [takeExact_drop hle, if_neg hlong], by omega, by
          rw [List.length_take, List.length_drop]; omega,
          fun payload => readPayloadAt_none (by omega), rfl⟩
  | true =>
      simp only [if_true]
      rw [takeExact_drop hle]
      split
      case isTrue hshort =>
        left
        rw [if_pos (.inl hshort)]
        exact ⟨rfl, rfl⟩
      case isFalse hfour =>
        have hle : headerLen + 4 ≤ p.length := by omega
        simp only [Option.map_some, Option.bind_some]
        rw [takeExact_drop hle]
        split
        case isTrue hshort =>
          left
          rw [if_pos (by omega)]
          exact ⟨rfl, rfl⟩
        case isFalse hlong =>
          right
          rw [if_neg (by omega)]
          exact ⟨some ((p.drop headerLen).take 4), some headerLen, headerLen + 4,
            (p.drop (headerLen + 4)).take n, rfl, by rw [takeExact_drop hle, if_neg hlong],
            by omega, by rw [List.length_take, List.length_drop]; omega,
            fun payload => readPayloadAt_mask (by omega) hle, rfl⟩

theorem handleTCPStreamAt_cases (isClient isMasking : Bool) (s : WebSocketHandler) (p : Bytes) :
    (readFrame p = none ∧ handleTCPStreamAt isClient isMasking s p = some .wait) ∨
      ∃ frame mask headerLen, FrameAt p frame mask headerLen ∧
        handleTCPStreamAt isClient isMasking s p = s.handleFrameAt isClient isMasking p frame.fin
          frame.code frame.hasMask mask headerLen frame.payload.length := by
  match p with
  | [] => exact .inl ⟨rfl, rfl⟩
  | [_] => exact .inl ⟨rfl, rfl⟩
  | p0 :: p1 :: head =>
      have hstart : ∀ found, readLengthAt (p0 :: p1 :: head) p1 = some found →
          handleTCPStreamAt isClient isMasking s (p0 :: p1 :: head) =
            match found with
            | none => some .wait
            | some (n, headerLen) =>
                s.handleMaskAt isClient isMasking (p0 :: p1 :: head) p0 p1 n headerLen := by
        intro found hfound
        rw [handleTCPStreamAt, if_neg (by simp), if_neg (by simp)]
        simp only [List.getElem?_cons_zero, List.getElem?_cons_succ, Option.bind_some, hfound]
      rcases readLengthAt_cases p0 p1 head with
        ⟨hnone, hnoneAt⟩ | ⟨n, headerLen, hlength, hle, hlengthAt⟩
      · left
        rw [hstart none hnoneAt, readFrame, hnone]
        exact ⟨rfl, rfl⟩
      · rw [hstart _ hlengthAt]
        rcases handleMaskAt_cases (n := n) isClient isMasking s p0 p1 hle with
          ⟨hnone, hwait⟩ | ⟨mask, maskAt, headerLen', data, hmask, hdata, hfits, hn, hread, hat⟩
        · left
          apply And.intro _ hwait
          cases hmask : readMask (p1 &&& 0x80 != 0) ((p0 :: p1 :: head).drop headerLen) with
          | none => simp only [readFrame, hlength, hmask, Option.bind_some, Option.bind_none]
          | some found =>
              rw [hmask, Option.bind_some] at hnone
              simp only [readFrame, hlength, hmask, hnone, Option.bind_some, Option.map_none]
        · right
          have hlen : (readPayload mask data).length = n := by
            cases mask with
            | none => exact hn
            | some mask => exact List.length_mapIdx.trans hn
          refine ⟨⟨p0 &&& 0x80 != 0, .ofNat (p0 &&& 0x0f).toNat, p1 &&& 0x80 != 0,
            readPayload mask data⟩, maskAt, headerLen', ?_, ?_⟩
          · apply FrameAt.mk
            · exact hlen ▸ hfits
            · simp only [readFrame, hlength, hmask, hdata, Option.bind_some, Option.map_some, hlen]
            · exact hlen ▸ hread
          · simp only [hlen]
            exact hat

theorem closeReasonAt_eq (beyond : UInt8) (h : payload.length = 1 → s.shuttingDown = true) :
    s.closeReasonAt payload = some (s.closeReason beyond payload) := by
  rw [closeReasonAt, closeReason]
  by_cases hshutting : s.shuttingDown = true
  case pos => rw [if_pos hshutting, if_pos (.inl hshutting)]
  case neg =>
    rw [if_neg hshutting]
    match payload with
    | [] => rw [if_pos List.length_nil, if_pos (.inr rfl)]
    | [_] => exact absurd (h rfl) hshutting
    | high :: low :: message =>
        have hne : ¬ (s.shuttingDown = true ∨ high :: low :: message = []) := by simp [hshutting]
        rw [if_neg (by simp), if_neg hne]
        simp only [List.getElem?_cons_zero, List.getElem?_cons_succ, Option.bind_some,
          List.getD_cons_zero, List.getD_cons_succ, List.drop_succ_cons, List.drop_zero]
        split
        case isTrue hlong =>
          rw [readRange_eq (by omega)]
          simp
        case isFalse hshort =>
          have hnil : message = [] := by
            apply List.eq_nil_of_length_eq_zero
            simp only [List.length_cons] at hshort
            omega
          rw [hnil]

/-- The second byte of a payload of one byte is not there. -/
theorem closeReasonAt_of_one (h : payload.length = 1) (hshutting : s.shuttingDown = false) :
    s.closeReasonAt payload = none := by
  match payload with
  | [high] =>
      rw [closeReasonAt, if_neg (by rw [hshutting]; exact Bool.false_ne_true), if_neg (by simp)]
      rfl

/-- What is read at indices below the sizes is what the frame holds. -/
theorem handleFrameAt_eq {frame : Frame} {maskAt : Option Nat}
    (h : FrameAt p frame maskAt headerLen)
    (hone : OneByteClose isClient frame → s.shuttingDown = true) :
    s.handleFrameAt isClient isMasking p frame.fin frame.code frame.hasMask maskAt headerLen
        frame.payload.length =
      some (s.handleFrame isClient isMasking beyond frame
        (p.drop (headerLen + frame.payload.length))) := by
  rw [handleFrameAt, handleFrame]
  by_cases hmasked : (frame.hasMask && isClient) = true
  case pos => rw [if_pos hmasked, if_pos hmasked]
  case neg =>
    rw [if_neg hmasked, if_neg hmasked, h.readPayload, h.readPayload, eraseFirst_eq h.fits]
    simp only [Option.bind_some, List.nil_append, Option.map_some]
    by_cases hcontrol : frame.code.isControlFrame = true
    case pos =>
      rw [if_pos hcontrol, if_pos hcontrol, handleControlFrameAt.eq_def,
        handleControlFrame.eq_def]
      by_cases hfin : frame.fin = true
      case neg =>
        have hnot : (!frame.fin) = true := by simp [hfin]
        rw [if_pos hnot, if_pos hnot]
      case pos =>
        have hnot : ¬ (!frame.fin) = true := by simp [hfin]
        rw [if_neg hnot, if_neg hnot]
        by_cases hlong : frame.payload.length > 125
        case pos => rw [if_pos hlong, if_pos hlong]
        case neg =>
          rw [if_neg hlong, if_neg hlong]
          cases hcode : frame.code with
          | ping =>
              simp only [readRange_eq (Nat.le_of_eq (Nat.zero_add _)), List.drop_zero,
                List.take_length, Option.map_some]
          | close =>
              have hreason := closeReasonAt_eq beyond fun hlength =>
                hone ⟨hcode, hfin, eq_false_of_ne_true hmasked, hlength⟩
              simp only [hreason, Option.map_some]
          | _ => rfl
    case neg =>
      rw [if_neg hcontrol, if_neg hcontrol]
      by_cases hblock : s.inFragmentBlock = true
      case pos =>
        rw [if_pos hblock]
        by_cases hcode : frame.code = .continuation
        case pos =>
          rw [if_neg (by simp [hcode]), if_neg (by simp [hblock]), if_neg (not_not.mpr hcode),
            handleDataFrame]
          split <;> rfl
        case neg => rw [if_pos (by simp [hblock, hcode]), if_pos hcode]
      case neg =>
        rw [if_neg hblock]
        by_cases hcode : frame.code = .continuation
        case pos =>
          rw [if_neg (by simp [hblock]), if_pos (by simp [hblock, hcode]), if_pos hcode]
        case neg =>
          rw [if_neg (by simp [hblock]), if_neg (by simp [hcode]), if_neg hcode, handleDataFrame]
          split <;> rfl

theorem handleFrameAt_of_oneByteClose {frame : Frame} {maskAt : Option Nat}
    (h : FrameAt p frame maskAt headerLen) (hone : OneByteClose isClient frame)
    (hshutting : s.shuttingDown = false) :
    s.handleFrameAt isClient isMasking p frame.fin frame.code frame.hasMask maskAt headerLen
      frame.payload.length = none := by
  have hmasked : ¬ (frame.hasMask && isClient) = true := by
    rw [hone.notMasked]
    exact Bool.false_ne_true
  have hcontrol : frame.code.isControlFrame = true := by
    rw [hone.close]
    rfl
  have hfin : ¬ (!frame.fin) = true := by simp [hone.fin]
  have hshort : ¬ frame.payload.length > 125 := by
    rw [hone.one]
    decide
  rw [handleFrameAt, if_neg hmasked, if_pos hcontrol, h.readPayload, eraseFirst_eq h.fits]
  simp only [Option.bind_some, List.nil_append]
  rw [handleControlFrameAt.eq_def, if_neg hfin, if_neg hshort, hone.close]
  simp only [closeReasonAt_of_one hone.one hshutting, Option.map_none]

/-- Where nothing is read outside, it is the same turn. -/
theorem handleTCPStreamAt_eq (beyond : UInt8)
    (h : ∀ frame rest, readFrame p = some (frame, rest) → OneByteClose isClient frame →
      s.shuttingDown = true) :
    handleTCPStreamAt isClient isMasking s p =
      some (handleTCPStream isClient isMasking beyond s p) := by
  rw [handleTCPStream]
  rcases handleTCPStreamAt_cases isClient isMasking s p with
    ⟨hnone, hwait⟩ | ⟨frame, mask, headerLen, hframe, hat⟩
  · rw [hwait, hnone]
  · rw [hat, hframe.readFrame]
    exact handleFrameAt_eq hframe (h _ _ hframe.readFrame)

theorem handleTCPStreamAt_of_oneByteClose {frame : Frame} (hread : readFrame p = some (frame, rest))
    (hone : OneByteClose isClient frame) (hshutting : s.shuttingDown = false) :
    handleTCPStreamAt isClient isMasking s p = none := by
  rcases handleTCPStreamAt_cases isClient isMasking s p with
    ⟨hnone, -⟩ | ⟨frame', mask, headerLen, hframe, hat⟩
  · cases hnone.symm.trans hread
  · cases hframe.readFrame.symm.trans hread
    rw [hat]
    exact handleFrameAt_of_oneByteClose hframe hone hshutting

theorem handleTCPStreamAt_isSome_iff (isClient isMasking : Bool) (s : WebSocketHandler)
    (p : Bytes) :
    (handleTCPStreamAt isClient isMasking s p).isSome = true ↔
      ∀ frame rest, readFrame p = some (frame, rest) → OneByteClose isClient frame →
        s.shuttingDown = true := by
  constructor
  · intro h frame rest hread hone
    by_contra hshutting
    rw [handleTCPStreamAt_of_oneByteClose hread hone (eq_false_of_ne_true hshutting)] at h
    cases h
  · intro h
    rw [handleTCPStreamAt_eq 0 h]
    rfl

end

/-- The turn reads the second byte of a payload of one byte. -/
def ReadsOutside (isClient : Bool) (s : WebSocketHandler) (p : Bytes) : Prop :=
  ∃ frame rest, readFrame p = some (frame, rest) ∧ OneByteClose isClient frame ∧
    s.shuttingDown = false

theorem not_readsOutside_iff (isClient : Bool) (s : WebSocketHandler) (p : Bytes) :
    ¬ ReadsOutside isClient s p ↔
      ∀ frame rest, readFrame p = some (frame, rest) → OneByteClose isClient frame →
        s.shuttingDown = true := by
  constructor
  · intro h frame rest hread hone
    by_contra hshutting
    exact h ⟨frame, rest, hread, hone, eq_false_of_ne_true hshutting⟩
  · rintro h ⟨frame, rest, hread, hone, hshutting⟩
    have hboth := h frame rest hread hone
    rw [hshutting] at hboth
    cases hboth

theorem checks_handleTCPStreamAt (isClient isMasking : Bool) (beyond : UInt8) :
    Checks (handleTCPStream isClient isMasking beyond) (handleTCPStreamAt isClient isMasking)
      (ReadsOutside isClient) := by
  apply Checks.mk
  case none =>
    rintro s p ⟨frame, rest, hread, hone, hshutting⟩
    exact handleTCPStreamAt_of_oneByteClose hread hone hshutting
  case some =>
    intro s p hinside
    exact handleTCPStreamAt_eq beyond ((not_readsOutside_iff isClient s p).mp hinside)
  case stops =>
    rintro s p ⟨frame, rest, hread, hone, -⟩
    have hlawful : ¬ Violates isClient (s.inFragmentBlock = true) frame := by
      have hmasked : frame.hasMask = true → isClient = false := by simpa using hone.notMasked
      simpa [Violates, hone.close, hone.fin, hone.one, WSOpCode.isControlFrame] using hmasked
    rcases @handleFrame_of_close isClient isMasking beyond s frame hlawful hone.close with
      ⟨status, message, hall⟩
    have hturn : handleTCPStream isClient isMasking beyond s p =
        s.shutdown isMasking status message := by
      rw [handleTCPStream, hread]
      exact hall rest
    exact ⟨_, hturn⟩
  case append =>
    intro s p more hwait
    cases hread : readFrame p with
    | none =>
        rw [handleTCPStream, hread] at hwait
        exact absurd rfl hwait
    | some found =>
        rcases found with ⟨frame, rest⟩
        have hmore := readFrame_append hread more
        constructor
        · rintro ⟨frame', rest', hread', hone⟩
          cases hmore.symm.trans hread'
          exact ⟨frame, rest, hread, hone⟩
        · rintro ⟨frame', rest', hread', hone⟩
          cases hread.symm.trans hread'
          exact ⟨frame, _, hmore, hone⟩

/-- Every index is below the size of what is read if and only if no close frame with one byte as
its payload is answered, in one turn and in all those for a stream that comes in pieces. -/
theorem indices_inBounds_iff (isClient isMasking : Bool) (beyond : UInt8) (s : WebSocketHandler) :
    (∀ p, (handleTCPStreamAt isClient isMasking s p).isSome = true ↔ ¬ ReadsOutside isClient s p) ∧
      ∀ pieces : List Bytes,
        (pieces.foldl (receive (checked (handleTCPStreamAt isClient isMasking)))
          ⟨some s, [], false⟩).state.isSome = true ↔
        ∀ s' p, TurnsTo (handleTCPStream isClient isMasking beyond) s pieces.flatten s' p →
          ¬ ReadsOutside isClient s' p := by
  apply And.intro
  · intro p
    rw [not_readsOutside_iff]
    exact handleTCPStreamAt_isSome_iff isClient isMasking s p
  · exact isSome_receive_checked (checks_handleTCPStreamAt isClient isMasking beyond)
      (steady_handleTCPStream isClient isMasking beyond) rfl

/-- A close frame with one byte, masked, as a client sends it. -/
theorem not_inBounds_oneByte :
    handleTCPStreamAt false false fresh [0x88, 0x81, 0, 0, 0, 0, 3] = none ∧
      ([[0x88, 0x81, 0, 0], [0, 0, 3]].foldl
        (receive (checked (handleTCPStreamAt false false))) ⟨some fresh, [], false⟩).state = none := by
  decide +kernel

end CoolOnline.WebSocketHandler
