import CoolOnline.Net.WebSocketReceive

/-! # Frames built and received

What a handler sends is what a handler at the other end delivers.
-/

namespace CoolOnline.WebSocketHandler

open Streams

/-! ## The mask -/

theorem applyMask_append (mask : Bytes) (i : Nat) (data more : Bytes) :
    applyMask mask i (data ++ more) =
      applyMask mask i data ++ applyMask mask (i + data.length) more := by
  have hplace (j : Nat) : i + (j + data.length) = i + data.length + j := by omega
  simp only [applyMask, List.mapIdx_append, hplace]

/-- Masking block by block is masking all at once. -/
theorem maskBlocks_eq {fuel : Nat} (i : Nat) {data : Bytes} (h : data.length < fuel) :
    maskBlocks fuel i data = applyMask maskBytes i data := by
  induction fuel generalizing i data with
  | zero => omega
  | succ fuel ih =>
      rw [maskBlocks]
      by_cases hdata : data = []
      · subst hdata
        rfl
      · have hpos : 0 < data.length := List.length_pos_of_ne_nil hdata
        have hsome : min 16384 data.length ≠ 0 := by omega
        have htake : (data.take (min 16384 data.length)).length = min 16384 data.length := by
          rw [List.length_take]
          omega
        have hrest : (data.drop (min 16384 data.length)).length < fuel := by
          rw [List.length_drop]
          omega
        simp only [hsome, if_false, ih _ hrest]
        conv_rhs => rw [← List.take_append_drop (min 16384 data.length) data]
        rw [applyMask_append, htake]

/-- The mask taken off again. -/
theorem applyMask_applyMask (mask data : Bytes) (i : Nat) :
    applyMask mask i (applyMask mask i data) = data := by
  apply List.ext_getElem
  · simp [applyMask]
  · intro j hj hj'
    simp only [applyMask, List.getElem_mapIdx, UInt8.xor_assoc, UInt8.xor_self, UInt8.xor_zero]

theorem applyMask_length (mask : Bytes) (i : Nat) (data : Bytes) :
    (applyMask mask i data).length = data.length := by
  simp [applyMask]

/-! ## The length -/

theorem small_length : ∀ n < 126, ∀ isMasking : Bool,
    ((UInt8.ofNat n ||| maskFlag isMasking) &&& 0x7f).toNat = n ∧
      ((UInt8.ofNat n ||| maskFlag isMasking) &&& 0x80 != 0) = isMasking := by
  decide +kernel

theorem large_length (isMasking : Bool) :
    ((126 ||| maskFlag isMasking) &&& 0x7f).toNat = 126 ∧
      ((126 ||| maskFlag isMasking) &&& 0x80 != 0) = isMasking ∧
    ((127 ||| maskFlag isMasking) &&& 0x7f).toNat = 127 ∧
      ((127 ||| maskFlag isMasking) &&& 0x80 != 0) = isMasking := by
  cases isMasking <;> decide

theorem bigEndian_two {len : Nat} (h : len < 2 ^ 16) :
    bigEndian [UInt8.ofNat (len / 2 ^ 8), UInt8.ofNat len] = len := by
  simp only [bigEndian, List.foldl_cons, List.foldl_nil, UInt8.toNat_ofNat']
  omega

theorem bigEndian_eight {len : Nat} (h : len < 2 ^ 31) :
    bigEndian [UInt8.ofNat (len / 2 ^ 56), UInt8.ofNat (len / 2 ^ 48), UInt8.ofNat (len / 2 ^ 40),
      UInt8.ofNat (len / 2 ^ 32), UInt8.ofNat (len / 2 ^ 24), UInt8.ofNat (len / 2 ^ 16),
      UInt8.ofNat (len / 2 ^ 8), UInt8.ofNat len] = len := by
  simp only [bigEndian, List.foldl_cons, List.foldl_nil, UInt8.toNat_ofNat']
  omega

/-- The length that was written is read again, in each of its three forms. -/
theorem readLength_lengthBytes (isMasking : Bool) {len : Nat} (h : len < 2 ^ 31) (rest : Bytes) :
    ∃ p1 more, lengthBytes (maskFlag isMasking) len = p1 :: more ∧
      (p1 &&& 0x80 != 0) = isMasking ∧ readLength p1 (more ++ rest) = some (len, rest) := by
  obtain ⟨h126, hmask126, h127, hmask127⟩ := large_length isMasking
  by_cases hsmall : len < 126
  · obtain ⟨hvalue, hmask⟩ := small_length len hsmall isMasking
    refine ⟨_, [], by rw [lengthBytes, if_pos hsmall], hmask, ?_⟩
    rw [readLength, hvalue, if_neg (by omega), if_neg (by omega), List.nil_append]
  by_cases hmiddle : len ≤ 0xffff
  · refine ⟨_, _, by rw [lengthBytes, if_neg hsmall, if_pos hmiddle], hmask126, ?_⟩
    rw [readLength, h126, if_pos rfl, takeExact_of_length]
    · exact congrArg (fun n => some (n, rest)) (bigEndian_two (by omega))
    · rfl
  · refine ⟨_, _, by rw [lengthBytes, if_neg hsmall, if_neg hmiddle], hmask127, ?_⟩
    rw [readLength, h127, if_neg (by decide), if_pos rfl, takeExact_of_length]
    · exact congrArg (fun n => some (n, rest)) (bigEndian_eight h)
    · rfl

/-! ## A frame -/

/-- The flags of a message that is sent in one frame. -/
def messageFlags (code : WSOpCode) : UInt8 := 0x80 ||| UInt8.ofNat code.toNat

theorem messageFlags_bits {code : WSOpCode} (hcode : code = .text ∨ code = .binary) :
    (0x80 ||| messageFlags code) &&& 0x80 ≠ 0 ∧
      WSOpCode.ofNat ((0x80 ||| messageFlags code) &&& 0x0f).toNat = code := by
  rcases hcode with rfl | rfl <;> decide

theorem readFrame_buildFrame (isMasking : Bool) {code : WSOpCode} {data : Bytes}
    (hcode : code = .text ∨ code = .binary) (h : data.length < 2 ^ 31) (rest : Bytes) :
    readFrame (buildFrame isMasking (messageFlags code) data ++ rest) =
      some (⟨true, code, isMasking, data⟩, rest) := by
  have hflags := messageFlags_bits hcode
  cases isMasking with
  | false =>
      obtain ⟨p1, more, hlength, hmask, hread⟩ := readLength_lengthBytes false h (data ++ rest)
      have hbytes : buildFrame false (messageFlags code) data ++ rest =
          (0x80 ||| messageFlags code) :: p1 :: (more ++ (data ++ rest)) := by
        simp [buildFrame, hlength]
      simp only [hbytes, readFrame, hread, Option.bind_some, hmask, readMask, Bool.false_eq_true,
        if_false, takeExact_of_length rest (rfl : data.length = data.length), Option.map_some,
        hflags.2]
      simp [hflags.1, readPayload]
  | true =>
      obtain ⟨p1, more, hlength, hmask, hread⟩ := readLength_lengthBytes true h
        (maskBytes ++ (applyMask maskBytes 0 data ++ rest))
      have hbytes : buildFrame true (messageFlags code) data ++ rest =
          (0x80 ||| messageFlags code) :: p1 ::
            (more ++ (maskBytes ++ (applyMask maskBytes 0 data ++ rest))) := by
        simp [buildFrame, hlength, maskBlocks_eq 0 (Nat.lt_succ_self data.length)]
      have hmask4 : takeExact 4 (maskBytes ++ (applyMask maskBytes 0 data ++ rest)) =
          some (maskBytes, applyMask maskBytes 0 data ++ rest) :=
        takeExact_of_length _ rfl
      simp only [hbytes, readFrame, hread, Option.bind_some, hmask, readMask, if_true, hmask4,
        Option.map_some, takeExact_of_length rest (applyMask_length maskBytes 0 data), hflags.2]
      simp [hflags.1, readPayload, applyMask_applyMask]

/-! ## A connection -/

/-- A text or binary message, not empty. -/
def Sendable (message : WSOpCode × Bytes) : Prop :=
  (message.1 = .text ∨ message.1 = .binary) ∧ message.2 ≠ [] ∧ message.2.length < 2 ^ 31

/-- The frames of messages, one behind the other. -/
def buildFrames (isMasking : Bool) (messages : List (WSOpCode × Bytes)) : Bytes :=
  messages.flatMap fun message => buildFrame isMasking (messageFlags message.1) message.2

section

variable {isClient isMasking isPeerMasking : Bool} {beyond : UInt8}

theorem drain_buildFrames (hrole : isMasking = true → isClient = false)
    {messages : List (WSOpCode × Bytes)} (h : ∀ message ∈ messages, Sendable message)
    (handled : List Bytes) :
    drain (handleTCPStream isClient isPeerMasking beyond) ⟨[], false, false, [], handled⟩
        (buildFrames isMasking messages) =
      ⟨⟨[], false, false, [], handled ++ messages.map Prod.snd⟩, [], false⟩ := by
  induction messages generalizing handled with
  | nil =>
      rw [List.map_nil, List.append_nil]
      exact drain_of_wait rfl
  | cons message messages ih =>
      obtain ⟨hcode, -, hlength⟩ := h message (by simp)
      have hread := readFrame_buildFrame isMasking hcode hlength (buildFrames isMasking messages)
      have hnext : handleTCPStream isClient isPeerMasking beyond ⟨[], false, false, [], handled⟩
          (buildFrames isMasking (message :: messages)) =
            .next ⟨[], false, false, [], handled ++ [message.2]⟩
              (buildFrames isMasking messages) := by
        have hrole' : (isMasking && isClient) = false := by
          cases isMasking with
          | false => rfl
          | true => exact hrole rfl
        rw [handleTCPStream, buildFrames, List.flatMap_cons, ← buildFrames, hread]
        rcases hcode with hcode | hcode <;>
          simp [handleFrame, hrole', hcode, WSOpCode.isControlFrame, handleDataFrame, finishMessage]
      rw [drain_of_next (steady_handleTCPStream isClient isPeerMasking beyond) hnext,
        ih (fun other hother => h other (by simp [hother])), List.map_cons, List.append_assoc]
      rfl

/-- What is sent is delivered at the other end, however the bytes are cut, and nothing is left. -/
theorem messages_roundTrip (isPeerMasking : Bool) (beyond : UInt8)
    (hrole : isMasking = true → isClient = false) {messages : List (WSOpCode × Bytes)}
    (h : ∀ message ∈ messages, Sendable message) {pieces : List Bytes}
    (hpieces : pieces.flatten = buildFrames isMasking messages) :
    pieces.foldl (receive (handleTCPStream isClient isPeerMasking beyond)) start =
      ⟨{ fresh with handled := messages.map Prod.snd }, [], false⟩ := by
  rw [receive_pieces (steady_handleTCPStream isClient isPeerMasking beyond) settled_start, hpieces]
  exact drain_buildFrames hrole h []

theorem messages_roundTrip_masked :
    (∀ message ∈ [(WSOpCode.text, [0x61, 0x62]), (WSOpCode.binary, [0x01])], Sendable message) ∧
      [[0x81, 0x82, 0x81], [0x76, 0x81, 0x76, 0xe0, 0x14, 0x82, 0x81, 0x81],
        [0x76, 0x81, 0x76, 0x80]].foldl (receive (handleTCPStream false false 0)) start =
          ⟨{ fresh with handled := [[0x61, 0x62], [0x01]] }, [], false⟩ := by
  have hmessages : ∀ message ∈ [(WSOpCode.text, [0x61, 0x62]), (WSOpCode.binary, [0x01])],
      Sendable message := by
    simp [Sendable]
  have hpieces : [[0x81, 0x82, 0x81], [0x76, 0x81, 0x76, 0xe0, 0x14, 0x82, 0x81, 0x81],
      [0x76, 0x81, 0x76, 0x80]].flatten = buildFrames true
        [(WSOpCode.text, [0x61, 0x62]), (WSOpCode.binary, [0x01])] := by
    decide +kernel
  exact ⟨hmessages, messages_roundTrip false 0 (fun _ => rfl) hmessages hpieces⟩

end

end CoolOnline.WebSocketHandler
