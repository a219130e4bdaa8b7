import CoolOnline.Net.WebSocketHandler

/-! # Receiving WebSocket messages

What a handler delivers for a stream of bytes, in terms of the frames that the stream starts with.
-/

namespace CoolOnline.WebSocketHandler

open Streams

/-! ## Frames in a stream -/

theorem readLength_readsFront (p1 : UInt8) : ReadsFront (readLength p1) := by
  unfold readLength
  dsimp only
  by_cases hword : (p1 &&& 0x7f).toNat = 126
  · simp only [hword, if_true]
    exact (takeExact_readsFront 2).map bigEndian
  by_cases hlong : (p1 &&& 0x7f).toNat = 127
  · simp only [hlong, if_true]
    exact (takeExact_readsFront 8).map bigEndian
  · simp only [hword, hlong, if_false]
    exact .some _

theorem readMask_readsFront (hasMask : Bool) : ReadsFront (readMask hasMask) := by
  cases hasMask with
  | false => exact .some _
  | true => exact (takeExact_readsFront 4).map some

/-- What comes behind the first two bytes of a frame. -/
theorem readFrame_readsFront (p0 p1 : UInt8) :
    ReadsFront fun rest => readFrame (p0 :: p1 :: rest) :=
  (readLength_readsFront p1).bind fun n =>
    (readMask_readsFront (p1 &&& 0x80 != 0)).bind fun mask =>
      (takeExact_readsFront n).map fun data =>
        ({ fin := p0 &&& 0x80 != 0
           code := .ofNat (p0 &&& 0x0f).toNat
           hasMask := p1 &&& 0x80 != 0
           payload := readPayload mask data } : Frame)

/-- A frame that is there does not depend on what is behind it. -/
theorem readFrame_append {buffer rest : Bytes} {frame : Frame}
    (h : readFrame buffer = some (frame, rest)) (more : Bytes) :
    readFrame (buffer ++ more) = some (frame, rest ++ more) := by
  match buffer with
  | [] => cases h
  | [_] => cases h
  | p0 :: p1 :: head => exact (readFrame_readsFront p0 p1).append h more

theorem readFrame_length {buffer rest : Bytes} {frame : Frame}
    (h : readFrame buffer = some (frame, rest)) : rest.length < buffer.length := by
  match buffer with
  | [] => cases h
  | [_] => cases h
  | p0 :: p1 :: head =>
      have hle := ((readFrame_readsFront p0 p1).suffix h).length_le
      simp only [List.length_cons]
      omega

/-- A stream starts with frames, one after the other. -/
inductive Frames : Bytes → List Frame → Bytes → Prop
  | nil (stream : Bytes) : Frames stream [] stream
  | snoc {stream buffer rest : Bytes} {frames : List Frame} {frame : Frame}
      (hframes : Frames stream frames buffer) (hframe : readFrame buffer = some (frame, rest)) :
      Frames stream (frames ++ [frame]) rest

/-! ## What one frame does -/

/-- A frame that the protocol does not allow, in a message that has begun or outside of one. -/
def Violates (isClient : Bool) (inMessage : Prop) (frame : Frame) : Prop :=
  frame.hasMask = true ∧ isClient = true ∨
    frame.code.isControlFrame = true ∧
      (frame.fin = false ∨ 125 < frame.payload.length ∨ ∃ n, frame.code = .reservedControl n) ∨
    frame.code.isControlFrame = false ∧ (frame.code = .continuation ↔ ¬ inMessage)

section

variable {isClient isMasking : Bool} {beyond : UInt8} {s s' : WebSocketHandler}
  {buffer rest : Bytes} {frame : Frame}

theorem handleFrame_of_violates (h : Violates isClient (s.inFragmentBlock = true) frame) :
    s.handleFrame isClient isMasking beyond frame rest =
      s.shutdown isMasking protocolError [] := by
  simp only [handleFrame]
  split_ifs with hmask hcontrol hblock hcode hcode
  · rfl
  · rcases h with h | ⟨-, hfin | hlong | ⟨n, hn⟩⟩ | ⟨hdata, -⟩
    · simp [h] at hmask
    · simp [handleControlFrame, hfin]
    · simp [handleControlFrame, hlong]
    · simp [handleControlFrame, hn]
    · simp [hdata] at hcontrol
  · rfl
  · simp_all [Violates]
  · rfl
  · simp_all [Violates]

/-- The handlers before and after a control frame other than a close frame. -/
structure SameMessage (s s' : WebSocketHandler) : Prop where
  wsPayload : s'.wsPayload = s.wsPayload
  inFragmentBlock : s'.inFragmentBlock = s.inFragmentBlock
  shuttingDown : s'.shuttingDown = s.shuttingDown
  handled : s'.handled = s.handled

theorem SameMessage.refl : SameMessage s s := ⟨rfl, rfl, rfl, rfl⟩

theorem SameMessage.sendFrame (flags : UInt8) (data : Bytes) :
    SameMessage s (s.sendFrame isMasking flags data) := by
  rw [WebSocketHandler.sendFrame]
  split_ifs
  · exact .refl
  · exact ⟨rfl, rfl, rfl, rfl⟩

theorem handleFrame_of_control (h : ¬ Violates isClient (s.inFragmentBlock = true) frame)
    (hcontrol : frame.code.isControlFrame = true) (hclose : frame.code ≠ .close) :
    ∃ s', SameMessage s s' ∧
      ∀ rest, s.handleFrame isClient isMasking beyond frame rest = .next s' rest := by
  simp only [Violates, hcontrol, true_and, not_or, not_and, not_exists, Bool.not_eq_false,
    Nat.not_lt] at h
  obtain ⟨hmask, ⟨hfin, hlong, hreserved⟩, -⟩ := h
  have hboth : ¬ (frame.hasMask && isClient) = true := by simpa using hmask
  have hshort : ¬ frame.payload.length > 125 := by omega
  cases hcode : frame.code with
  | ping =>
      refine ⟨s.sendFrame isMasking (0x80 ||| 0x0a) frame.payload, .sendFrame _ _, fun rest => ?_⟩
      simp [handleFrame, handleControlFrame, hboth, hcode, WSOpCode.isControlFrame, hfin, hshort]
  | pong =>
      refine ⟨s, .refl, fun rest => ?_⟩
      simp [handleFrame, handleControlFrame, hboth, hcode, WSOpCode.isControlFrame, hfin, hshort]
  | close => exact absurd hcode hclose
  | reservedControl n => exact absurd hcode (hreserved n)
  | _ => simp [hcode, WSOpCode.isControlFrame] at hcontrol

theorem handleFrame_of_close (h : ¬ Violates isClient (s.inFragmentBlock = true) frame)
    (hclose : frame.code = .close) :
    ∃ status message, ∀ rest, s.handleFrame isClient isMasking beyond frame rest =
      s.shutdown isMasking status message := by
  simp only [Violates, hclose, WSOpCode.isControlFrame, true_and, not_or, not_and,
    Bool.not_eq_false, Nat.not_lt] at h
  obtain ⟨hmask, ⟨hfin, hlong, -⟩, -⟩ := h
  have hboth : ¬ (frame.hasMask && isClient) = true := by simpa using hmask
  have hshort : ¬ frame.payload.length > 125 := by omega
  refine ⟨(s.closeReason beyond frame.payload).1, (s.closeReason beyond frame.payload).2,
    fun rest => ?_⟩
  simp [handleFrame, handleControlFrame, hboth, hclose, WSOpCode.isControlFrame, hfin, hshort]

theorem handleFrame_of_data (h : ¬ Violates isClient (s.inFragmentBlock = true) frame)
    (hdata : frame.code.isControlFrame = false) :
    s.handleFrame isClient isMasking beyond frame rest = s.handleDataFrame frame rest := by
  simp only [Violates, hdata, not_or, not_and, true_and, Bool.false_eq_true, false_and] at h
  obtain ⟨hmask, -, hcode⟩ := h
  have hboth : ¬ (frame.hasMask && isClient) = true := by simpa using hmask
  by_cases hblock : s.inFragmentBlock = true
  · have hcontinuation : frame.code = .continuation := by simpa [hblock] using hcode
    simp [handleFrame, hboth, hblock, hcontinuation, WSOpCode.isControlFrame]
  · have hfirst : frame.code ≠ .continuation := by simpa [hblock] using hcode
    simp [handleFrame, hboth, hdata, hblock, hfirst]

/-- What a frame leads to does not depend on what is behind it. -/
theorem handleFrame_rest (isClient isMasking : Bool) (beyond : UInt8) (s : WebSocketHandler)
    (frame : Frame) :
    (∃ s', ∀ rest, s.handleFrame isClient isMasking beyond frame rest = .next s' rest) ∨
      ∃ s', ∀ rest, s.handleFrame isClient isMasking beyond frame rest = .stop s' := by
  by_cases hviolates : Violates isClient (s.inFragmentBlock = true) frame
  · exact .inr ⟨_, fun rest => handleFrame_of_violates hviolates⟩
  by_cases hcontrol : frame.code.isControlFrame = true
  · by_cases hclose : frame.code = .close
    · obtain ⟨status, message, h⟩ := handleFrame_of_close hviolates hclose
      exact .inr ⟨_, h⟩
    · obtain ⟨s', -, h⟩ := handleFrame_of_control hviolates hcontrol hclose
      exact .inl ⟨s', h⟩
  · have hdata : frame.code.isControlFrame = false := by simpa using hcontrol
    refine .inl ?_
    by_cases hfin : frame.fin = true
    · refine ⟨s.finishMessage frame, fun rest => ?_⟩
      rw [handleFrame_of_data hviolates hdata, handleDataFrame, if_pos hfin]
    · refine ⟨s.addFragment frame, fun rest => ?_⟩
      rw [handleFrame_of_data hviolates hdata, handleDataFrame, if_neg hfin]

/-- A turn waits where there is no frame, and else is taken or ends all. -/
theorem handleTCPStream_cases (isClient isMasking : Bool) (beyond : UInt8) (s : WebSocketHandler)
    (buffer : Bytes) :
    (readFrame buffer = none ∧ handleTCPStream isClient isMasking beyond s buffer = .wait) ∨
    ∃ frame rest, readFrame buffer = some (frame, rest) ∧
      ((∃ s', handleTCPStream isClient isMasking beyond s buffer = .next s' rest ∧
          ∀ rest, s.handleFrame isClient isMasking beyond frame rest = .next s' rest) ∨
        ∃ s', handleTCPStream isClient isMasking beyond s buffer = .stop s' ∧
          ∀ rest, s.handleFrame isClient isMasking beyond frame rest = .stop s') := by
  cases hread : readFrame buffer with
  | none => exact .inl ⟨rfl, by rw [handleTCPStream, hread]⟩
  | some read =>
      obtain ⟨frame, rest⟩ := read
      refine .inr ⟨frame, rest, rfl, ?_⟩
      rw [handleTCPStream, hread]
      rcases handleFrame_rest isClient isMasking beyond s frame with ⟨s', hall⟩ | ⟨s', hall⟩
      · exact .inl ⟨s', hall rest, hall⟩
      · exact .inr ⟨s', hall rest, hall⟩

theorem exists_of_next (h : handleTCPStream isClient isMasking beyond s buffer = .next s' rest) :
    ∃ frame, readFrame buffer = some (frame, rest) ∧
      ∀ rest, s.handleFrame isClient isMasking beyond frame rest = .next s' rest := by
  rcases handleTCPStream_cases isClient isMasking beyond s buffer with
    ⟨-, hwait⟩ | ⟨frame, behind, hread, ⟨s₁, hnext, hall⟩ | ⟨s₁, hstop, -⟩⟩
  · cases hwait.symm.trans h
  · cases hnext.symm.trans h
    exact ⟨frame, hread, hall⟩
  · cases hstop.symm.trans h

theorem exists_of_stop (h : handleTCPStream isClient isMasking beyond s buffer = .stop s') :
    ∃ frame rest, readFrame buffer = some (frame, rest) ∧
      ∀ rest, s.handleFrame isClient isMasking beyond frame rest = .stop s' := by
  rcases handleTCPStream_cases isClient isMasking beyond s buffer with
    ⟨-, hwait⟩ | ⟨frame, behind, hread, ⟨s₁, hnext, -⟩ | ⟨s₁, hstop, hall⟩⟩
  · cases hwait.symm.trans h
  · cases hnext.symm.trans h
  · cases hstop.symm.trans h
    exact ⟨frame, behind, hread, hall⟩

theorem readFrame_of_wait (h : handleTCPStream isClient isMasking beyond s buffer = .wait) :
    readFrame buffer = none := by
  rcases handleTCPStream_cases isClient isMasking beyond s buffer with
    ⟨hnone, -⟩ | ⟨frame, behind, hread, ⟨s₁, hnext, -⟩ | ⟨s₁, hstop, -⟩⟩
  · exact hnone
  · cases hnext.symm.trans h
  · cases hstop.symm.trans h

theorem steady_handleTCPStream (isClient isMasking : Bool) (beyond : UInt8) :
    Steady (handleTCPStream isClient isMasking beyond) := by
  constructor
  · intro s buffer s' rest more h
    obtain ⟨frame, hread, hall⟩ := exists_of_next h
    rw [handleTCPStream, readFrame_append hread]
    exact hall (rest ++ more)
  · intro s buffer s' more h
    obtain ⟨frame, rest, hread, hall⟩ := exists_of_stop h
    rw [handleTCPStream, readFrame_append hread]
    exact hall (rest ++ more)
  · intro s buffer s' rest h
    obtain ⟨frame, hread, -⟩ := exists_of_next h
    exact readFrame_length hread

end

/-! ## Messages -/

/-- The frames of a message that is not finished. -/
def Started : List Frame → Prop
  | [] => True
  | first :: rest =>
      (first.code ≠ .continuation ∧ first.fin = false) ∧
        ∀ frame ∈ rest, frame.code = .continuation ∧ frame.fin = false

/-- The frames of a message: the first one is not a continuation, all others are, and the last one
only is final. -/
def FragmentSequence (frames : List Frame) : Prop :=
  ∃ started last, frames = started ++ [last] ∧ Started started ∧ last.fin = true ∧
    (last.code = .continuation ↔ started ≠ [])

def payloadOf (frames : List Frame) : Bytes := frames.flatMap Frame.payload

/-- The data frames since the last final one. -/
def unfinished (frames : List Frame) : List Frame :=
  frames.foldl (fun started frame =>
    if frame.code.isControlFrame then started
    else if frame.fin then []
    else started ++ [frame]) []

/-- Frames that all may come where they come, none of them a close frame. -/
def Lawful (isClient : Bool) (frames : List Frame) : Prop :=
  ∀ before frame after, frames = before ++ frame :: after →
    ¬ Violates isClient (unfinished before ≠ []) frame ∧ frame.code ≠ .close

/-- A handler that has read the frames, which make up the sequences and what is unfinished. -/
structure Reached (isClient : Bool) (frames : List Frame) (sequences : List (List Frame))
    (s : WebSocketHandler) : Prop where
  lawful : Lawful isClient frames
  data : frames.filter (fun frame => !frame.code.isControlFrame) =
    sequences.flatten ++ unfinished frames
  complete : ∀ sequence ∈ sequences, FragmentSequence sequence
  started : Started (unfinished frames)
  handled : s.handled = sequences.map payloadOf
  wsPayload : s.wsPayload = payloadOf (unfinished frames)
  inFragmentBlock : s.inFragmentBlock = true ↔ unfinished frames ≠ []
  shuttingDown : s.shuttingDown = false

section

variable {isClient isMasking : Bool} {beyond : UInt8} {s s' : WebSocketHandler}
  {frames : List Frame} {sequences : List (List Frame)} {frame : Frame}

theorem unfinished_append_control (frames : List Frame) (h : frame.code.isControlFrame = true) :
    unfinished (frames ++ [frame]) = unfinished frames := by
  simp [unfinished, h]

theorem unfinished_append_final (frames : List Frame)
    (h : frame.code.isControlFrame = false) (hfin : frame.fin = true) :
    unfinished (frames ++ [frame]) = [] := by
  simp [unfinished, h, hfin]

theorem unfinished_append_data (frames : List Frame)
    (h : frame.code.isControlFrame = false) (hfin : frame.fin = false) :
    unfinished (frames ++ [frame]) = unfinished frames ++ [frame] := by
  simp [unfinished, h, hfin]

theorem Lawful.snoc (h : Lawful isClient frames)
    (hframe : ¬ Violates isClient (unfinished frames ≠ []) frame) (hclose : frame.code ≠ .close) :
    Lawful isClient (frames ++ [frame]) := by
  intro before other after heq
  rcases List.eq_nil_or_concat after with rfl | ⟨after, last, rfl⟩
  · obtain ⟨rfl, hlast⟩ := List.append_inj' heq rfl
    cases hlast
    exact ⟨hframe, hclose⟩
  · rw [List.concat_eq_append, ← List.cons_append, ← List.append_assoc] at heq
    exact h before other after (List.append_inj' heq rfl).1

theorem Reached.fresh : Reached isClient [] [] fresh :=
  { lawful := by
      intro before other after heq
      simp at heq
    data := rfl
    complete := by simp
    started := trivial
    handled := rfl
    wsPayload := rfl
    inFragmentBlock := by simp [WebSocketHandler.fresh, unfinished]
    shuttingDown := rfl }

/-- A frame that does not violate the protocol after the frames that were read. -/
theorem Reached.violates_iff (h : Reached isClient frames sequences s) :
    Violates isClient (s.inFragmentBlock = true) frame ↔
      Violates isClient (unfinished frames ≠ []) frame := by
  simp only [Violates, h.inFragmentBlock]

theorem Started.snoc {started : List Frame} (h : Started started)
    (hcode : frame.code = .continuation ↔ started ≠ []) (hfin : frame.fin = false) :
    Started (started ++ [frame]) := by
  cases started with
  | nil => exact ⟨⟨by simpa using hcode, hfin⟩, by simp⟩
  | cons first rest =>
      refine ⟨h.1, fun other hother => ?_⟩
      rcases List.mem_append.mp hother with hold | hnew
      · exact h.2 other hold
      · rw [List.mem_singleton.mp hnew]
        exact ⟨hcode.mpr (by simp), hfin⟩

theorem payloadOf_snoc : payloadOf (frames ++ [frame]) = payloadOf frames ++ frame.payload := by
  simp [payloadOf]

theorem continuation_iff (h : ¬ Violates isClient (unfinished frames ≠ []) frame)
    (hdata : frame.code.isControlFrame = false) :
    frame.code = .continuation ↔ unfinished frames ≠ [] := by
  by_cases hstarted : unfinished frames = []
  · have hne : frame.code ≠ .continuation := fun hcode =>
      h (.inr (.inr ⟨hdata, by simp [hcode, hstarted]⟩))
    simp [hne, hstarted]
  · by_contra hcode
    exact h (.inr (.inr ⟨hdata, by simp_all⟩))

theorem Reached.control (h : Reached isClient frames sequences s)
    (hlawful : Lawful isClient (frames ++ [frame])) (hcontrol : frame.code.isControlFrame = true)
    (hsame : SameMessage s s') : Reached isClient (frames ++ [frame]) sequences s' := by
  have hunfinished := unfinished_append_control frames hcontrol
  exact
    { lawful := hlawful
      data := by simp [hunfinished, ← h.data, List.filter_append, hcontrol]
      complete := h.complete
      started := hunfinished ▸ h.started
      handled := hsame.handled.trans h.handled
      wsPayload := by rw [hunfinished, hsame.wsPayload, h.wsPayload]
      inFragmentBlock := by rw [hunfinished, hsame.inFragmentBlock, h.inFragmentBlock]
      shuttingDown := hsame.shuttingDown.trans h.shuttingDown }

theorem Reached.finishMessage (h : Reached isClient frames sequences s)
    (hlawful : Lawful isClient (frames ++ [frame])) (hdata : frame.code.isControlFrame = false)
    (hfin : frame.fin = true) (hcode : frame.code = .continuation ↔ unfinished frames ≠ []) :
    Reached isClient (frames ++ [frame]) (sequences ++ [unfinished frames ++ [frame]])
      (s.finishMessage frame) := by
  have hunfinished := unfinished_append_final frames hdata hfin
  exact
    { lawful := hlawful
      data := by simp [hunfinished, h.data, List.filter_append, hdata]
      complete := by
        intro sequence hsequence
        rcases List.mem_append.mp hsequence with hold | hnew
        · exact h.complete sequence hold
        · rw [List.mem_singleton.mp hnew]
          exact ⟨_, frame, rfl, h.started, hfin, hcode⟩
      started := by rw [hunfinished]; trivial
      handled := by
        simp only [WebSocketHandler.finishMessage, h.handled, h.wsPayload, List.map_append,
          List.map_cons, List.map_nil, payloadOf_snoc]
      wsPayload := by rw [hunfinished]; rfl
      inFragmentBlock := by simp [WebSocketHandler.finishMessage, hunfinished]
      shuttingDown := h.shuttingDown }

theorem Reached.addFragment (h : Reached isClient frames sequences s)
    (hlawful : Lawful isClient (frames ++ [frame])) (hdata : frame.code.isControlFrame = false)
    (hfin : frame.fin = false) (hcode : frame.code = .continuation ↔ unfinished frames ≠ []) :
    Reached isClient (frames ++ [frame]) sequences (s.addFragment frame) := by
  have hunfinished := unfinished_append_data frames hdata hfin
  exact
    { lawful := hlawful
      data := by simp [hunfinished, h.data, List.filter_append, hdata]
      complete := h.complete
      started := by rw [hunfinished]; exact h.started.snoc hcode hfin
      handled := h.handled
      wsPayload := by
        simp only [WebSocketHandler.addFragment, hunfinished, h.wsPayload, payloadOf_snoc]
      inFragmentBlock := by simp [WebSocketHandler.addFragment, hunfinished]
      shuttingDown := h.shuttingDown }

/-- A turn that is taken reads a frame that may come, and keeps what is known. -/
theorem Reached.next (h : Reached isClient frames sequences s)
    (hall : ∀ rest, s.handleFrame isClient isMasking beyond frame rest = .next s' rest) :
    ∃ sequences', Reached isClient (frames ++ [frame]) sequences' s' := by
  have hnext := hall []
  have hkept : ¬ Violates isClient (s.inFragmentBlock = true) frame := by
    intro hviolates
    rw [handleFrame_of_violates hviolates] at hnext
    cases hnext
  have hallowed := mt h.violates_iff.mpr hkept
  have hclose : frame.code ≠ .close := by
    intro hcode
    obtain ⟨status, message, hstop⟩ := handleFrame_of_close hkept hcode
    cases (hstop []).symm.trans hnext
  have hlawful := h.lawful.snoc hallowed hclose
  by_cases hcontrol : frame.code.isControlFrame = true
  · obtain ⟨s₁, hsame, hcontinue⟩ := handleFrame_of_control hkept hcontrol hclose
    cases (hcontinue []).symm.trans hnext
    exact ⟨sequences, h.control hlawful hcontrol hsame⟩
  · have hdata : frame.code.isControlFrame = false := by simpa using hcontrol
    have hcode := continuation_iff hallowed hdata
    rw [handleFrame_of_data hkept hdata, handleDataFrame] at hnext
    split at hnext
    next hfin =>
      cases hnext
      exact ⟨_, h.finishMessage hlawful hdata hfin hcode⟩
    next hfin =>
      cases hnext
      exact ⟨sequences, h.addFragment hlawful hdata (by simpa using hfin) hcode⟩

end

/-! ## Runs -/

/-- What a handler has made of a stream: it has delivered the messages of the frames up to where
one is not complete yet, or is not allowed, or closes the connection. -/
structure Received (isClient isMasking : Bool) (stream : Bytes)
    (r : Reader WebSocketHandler UInt8) (frames : List Frame) (sequences : List (List Frame))
    (rest : Bytes) : Prop where
  stream : Frames stream frames rest
  lawful : Lawful isClient frames
  data : frames.filter (fun frame => !frame.code.isControlFrame) =
    sequences.flatten ++ unfinished frames
  complete : ∀ sequence ∈ sequences, FragmentSequence sequence
  started : Started (unfinished frames)
  handled : r.state.handled = sequences.map payloadOf
  waiting : readFrame rest = none → r.ignoring = false ∧ r.buffer = rest
  error : ∀ frame behind, readFrame rest = some (frame, behind) →
    Violates isClient (unfinished frames ≠ []) frame →
      r.ignoring = true ∧ ∃ before, r.state.outBuffer =
        before ++ buildFrame isMasking 0x88 [0x03, 0xea]
  closed : ∀ frame behind, readFrame rest = some (frame, behind) →
    ¬ Violates isClient (unfinished frames ≠ []) frame →
      r.ignoring = true ∧ frame.code = .close

section

variable {isClient isMasking : Bool} {beyond : UInt8} {s s' : WebSocketHandler}

theorem sendCloseFrame_handled (statusCode : Nat) (statusMessage : Bytes) :
    (s.sendCloseFrame isMasking statusCode statusMessage).handled = s.handled := by
  rw [sendCloseFrame]
  split_ifs
  · rfl
  · exact (SameMessage.sendFrame (s := { s with shuttingDown := true }) _ _).handled

/-- A frame that ends all is not allowed, or closes the connection. -/
theorem Reached.stop {frames : List Frame} {sequences : List (List Frame)} {frame : Frame}
    {rest : Bytes} (h : Reached isClient frames sequences s)
    (hstop : s.handleFrame isClient isMasking beyond frame rest = .stop s') :
    (Violates isClient (unfinished frames ≠ []) frame ∧ s'.handled = s.handled ∧
      s'.outBuffer = s.outBuffer ++ buildFrame isMasking 0x88 [0x03, 0xea]) ∨
    (¬ Violates isClient (unfinished frames ≠ []) frame ∧ frame.code = .close ∧
      s'.handled = s.handled) := by
  by_cases hviolates : Violates isClient (s.inFragmentBlock = true) frame
  · rw [handleFrame_of_violates hviolates] at hstop
    cases hstop
    refine .inl ⟨h.violates_iff.mp hviolates, sendCloseFrame_handled _ _, ?_⟩
    simp only [sendCloseFrame, h.shuttingDown, Bool.false_eq_true, if_false, sendFrame,
      reduceCtorEq]
    rfl
  have hlawful := mt h.violates_iff.mpr hviolates
  by_cases hcontrol : frame.code.isControlFrame = true
  · by_cases hclose : frame.code = .close
    · obtain ⟨status, message, hall⟩ := handleFrame_of_close hviolates hclose
      cases (hall rest).symm.trans hstop
      exact .inr ⟨hlawful, hclose, sendCloseFrame_handled _ _⟩
    · obtain ⟨s₁, -, hall⟩ := handleFrame_of_control hviolates hcontrol hclose
      cases (hall rest).symm.trans hstop
  · rw [handleFrame_of_data hviolates (by simpa using hcontrol), handleDataFrame] at hstop
    split at hstop <;> cases hstop

/-- A handler that has read some frames of a stream and goes on with what follows them. -/
theorem exists_received (isClient isMasking : Bool) (beyond : UInt8) (stream : Bytes)
    (s : WebSocketHandler) (buffer : Bytes) :
    ∀ frames sequences, Frames stream frames buffer → Reached isClient frames sequences s →
      ∃ frames sequences rest, Received isClient isMasking stream
        (drain (handleTCPStream isClient isMasking beyond) s buffer) frames sequences rest := by
  refine drain_induction (P := fun s buffer r => ∀ frames sequences, Frames stream frames buffer →
    Reached isClient frames sequences s → ∃ frames sequences rest,
      Received isClient isMasking stream r frames sequences rest)
    (steady_handleTCPStream isClient isMasking beyond) ?_ ?_ ?_ s buffer
  · intro s buffer hwait frames sequences hstream h
    have hnone := readFrame_of_wait hwait
    exact ⟨frames, sequences, buffer,
      { h with
        stream := hstream
        waiting := fun _ => ⟨rfl, rfl⟩
        error := by simp [hnone]
        closed := by simp [hnone] }⟩
  · intro s buffer s' hstop frames sequences hstream h
    obtain ⟨frame, rest, hread, hall⟩ := exists_of_stop hstop
    have hsame : ∀ other behind, readFrame buffer = some (other, behind) → other = frame := by
      intro other behind hother
      cases hread.symm.trans hother
      rfl
    rcases h.stop (hall rest) with ⟨hviolates, hhandled, hout⟩ | ⟨hlawful, hclose, hhandled⟩
    · exact ⟨frames, sequences, buffer,
        { h with
          stream := hstream
          handled := hhandled.trans h.handled
          waiting := by simp [hread]
          error := fun _ _ _ _ => ⟨rfl, s.outBuffer, hout⟩
          closed := fun other behind hother hnot =>
            absurd (hsame other behind hother ▸ hviolates) hnot }⟩
    · exact ⟨frames, sequences, buffer,
        { h with
          stream := hstream
          handled := hhandled.trans h.handled
          waiting := by simp [hread]
          error := fun other behind hother hviolates =>
            absurd (hsame other behind hother ▸ hviolates) hlawful
          closed := fun other behind hother _ => ⟨rfl, hsame other behind hother ▸ hclose⟩ }⟩
  · intro s buffer s' rest r hnext ih frames sequences hstream h
    obtain ⟨frame, hread, hall⟩ := exists_of_next hnext
    obtain ⟨sequences', hreached⟩ := h.next hall
    exact ih _ sequences' (hstream.snoc hread) hreached

/-- A handler before anything has arrived. -/
def start : Reader WebSocketHandler UInt8 := ⟨fresh, [], false⟩

theorem settled_start : Settled (handleTCPStream isClient isMasking beyond) start := .inr rfl

/-- However a stream is cut, the messages delivered are the payloads of its fragment sequences, up
to a frame that is not allowed, which leads to a protocol error, or that closes the connection. -/
theorem messages_received (isClient isMasking : Bool) (beyond : UInt8) (pieces : List Bytes) :
    pieces.foldl (receive (handleTCPStream isClient isMasking beyond)) start =
        receive (handleTCPStream isClient isMasking beyond) start pieces.flatten ∧
      ∃ frames sequences rest, Received isClient isMasking pieces.flatten
        (pieces.foldl (receive (handleTCPStream isClient isMasking beyond)) start) frames
        sequences rest := by
  have hcuts := receive_pieces (steady_handleTCPStream isClient isMasking beyond) settled_start
    pieces
  refine ⟨hcuts, ?_⟩
  rw [hcuts]
  exact exists_received isClient isMasking beyond pieces.flatten fresh pieces.flatten [] []
    (.nil _) .fresh

end

end CoolOnline.WebSocketHandler
