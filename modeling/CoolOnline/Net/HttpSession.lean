import CoolOnline.Library.History
import CoolOnline.Net.HttpResponse

/-! # Requests of a client

`http::Session` of `net/HttpRequest.hpp`, with the ends of its `http::Response`. The poll reads
into the buffer of the socket, hands over what is there, asks whether it has been too long, and
says when the connection is lost; a request is made at any time.
-/

namespace CoolOnline.Http

/-- `Header::ConnectionToken`. -/
inductive ConnectionToken
  | none
  | close
  | keepAlive
  | upgrade
deriving DecidableEq, Repr

def Header.CONNECTION : Payload := "Connection".toList

def Header.getConnectionToken (h : Header) : ConnectionToken :=
  let token := h.get CONNECTION
  if iequal "close".toList token then .close
  else if iequal "keep-alive".toList token then .keepAlive
  else if iequal "upgrade".toList token then .upgrade
  else .none

/-- The states of a response that are final. -/
inductive FinalState
  | error
  | timeout
  | complete
deriving DecidableEq, Repr

/-- `_response`; that it is done is said here, and not by what has been parsed. -/
structure Answer where
  response : Response
  state : Option FinalState
deriving DecidableEq, Repr

def Answer.new : Answer := ⟨.empty, none⟩

def Answer.done (a : Answer) : Bool := a.state.isSome

structure SessionSocket where
  inBuffer : Payload
  shutdownSignalled : Bool
deriving DecidableEq, Repr

/-- A session. `connecting` is how many connections are being made; `finished` and `connectFailed`
are what the client was told of this request; `late` is how often data was read for it when it was
done. -/
structure Session where
  /-- In microseconds. -/
  timeout : Nat
  /-- In nanoseconds. -/
  startTime : Nat
  connected : Bool
  asyncShutdownOnFinish : Bool
  response : Option Answer
  socket : Option SessionSocket
  connecting : Nat
  finished : List FinalState
  connectFailed : Nat
  late : Nat
deriving DecidableEq, Repr

namespace Session

def getDefaultTimeout : Nat := 30000000

def new : Session := ⟨getDefaultTimeout, 0, false, false, none, none, 0, [], 0, 0⟩

variable (s : Session)

/-- `_onFinished` is called with the session in this state. -/
def callOnFinished (state : FinalState) : Session :=
  { s with
    socket :=
      if s.asyncShutdownOnFinish then
        s.socket.map fun socket => { socket with shutdownSignalled := true }
      else s.socket
    finished := s.finished ++ [state] }

/-- The socket is released. -/
def disconnect : Session := { s with socket := none, connected := false }

/-- `Response::finish`, and `onFinished` of `newRequest`. -/
def finish (state : FinalState) : Session :=
  match s.response with
  | none => s
  | some a =>
      if a.done then s
      else
        let s := { s with response := some { a with state := some state } }.callOnFinished state
        -- `onDisconnect` finds the response done here.
        if a.response.header.getConnectionToken = .close then s.disconnect else s

def onDisconnect : Session := s.disconnect.finish .error

def newRequest (now : Nat) (asyncShutdownOnFinish : Bool) : Session :=
  { s with
    startTime := now
    asyncShutdownOnFinish := asyncShutdownOnFinish
    response := some .new
    finished := []
    connectFailed := 0
    late := 0 }

def asyncRequest (now : Nat) (asyncShutdownOnFinish : Bool) : Session :=
  let s := s.newRequest now asyncShutdownOnFinish
  if s.connected then s else { s with socket := none, connecting := s.connecting + 1 }

/-- `onConnect` and `asyncConnectSuccess`. -/
def asyncConnectSuccess : Session :=
  { s with connected := true, socket := some ⟨[], false⟩, connecting := s.connecting - 1 }

def callOnConnectFail : Session := { s with connectFailed := s.connectFailed + 1 }

def asyncConnectFailed : Session := { s with connecting := s.connecting - 1 }.callOnConnectFail

/-- The response reads all that is there; what it has not consumed stays. -/
def readData (poco : Payload → PocoRead) (a : Answer) (data : Payload) : Session :=
  let s := { s with late := if a.done then s.late + 1 else s.late }
  match a.response.readData poco data with
  | none => { s with response := some { a with state := none } }.onDisconnect
  | some (r, rest) =>
      let s := { s with
        response := some ⟨r, none⟩
        socket := s.socket.map fun socket => { socket with inBuffer := rest } }
      if r.state = .complete then s.finish .complete else s

/-- There is no result where the response is null. -/
def handleIncomingMessage (poco : Payload → PocoRead) : Option Session :=
  match s.connected, s.socket with
  | true, some socket =>
      if socket.inBuffer = [] then some s
      else s.response.map fun a => s.readData poco a socket.inBuffer
  | _, _ => some s.onDisconnect

/-- The duration is in whole milliseconds. -/
def isTimeout (now : Nat) (terminating : Bool) : Bool :=
  now < s.startTime ||
    0 < s.timeout && s.timeout < (now - s.startTime) / 1000000 * 1000 || terminating

def checkTimeout (now : Nat) (terminating : Bool) : Session :=
  match s.response with
  | none => s
  | some a =>
      if a.done then s
      else if s.isTimeout now terminating then (s.finish .timeout).onDisconnect
      else s

/-- What the socket reads; what comes for a session without one is lost. -/
def receive (piece : Payload) : Session :=
  { s with socket := s.socket.map fun socket =>
      { socket with inBuffer := socket.inBuffer ++ piece } }

inductive Event
  | setTimeout (timeout : Nat)
  | asyncRequest (now : Nat) (asyncShutdownOnFinish : Bool)
  | asyncConnectSuccess
  | asyncConnectFailed
  | onHandshakeFail
  | receive (piece : Payload)
  | handleIncomingMessage
  | onDisconnect
  | checkTimeout (now : Nat) (terminating : Bool)
deriving DecidableEq, Repr

def step (poco : Payload → PocoRead) (s : Session) : Event → Option Session
  | .setTimeout timeout => some { s with timeout := timeout }
  | .asyncRequest now asyncShutdownOnFinish => some (s.asyncRequest now asyncShutdownOnFinish)
  | .asyncConnectSuccess => if 0 < s.connecting then some s.asyncConnectSuccess else none
  | .asyncConnectFailed => if 0 < s.connecting then some s.asyncConnectFailed else none
  | .onHandshakeFail => some s.callOnConnectFail
  | .receive piece => some (s.receive piece)
  | .handleIncomingMessage => s.handleIncomingMessage poco
  | .onDisconnect => some s.onDisconnect
  | .checkTimeout now terminating => some (s.checkTimeout now terminating)

/-! ## What every step keeps -/

variable {s} {s' : Session} {a : Answer} {state : FinalState} {poco : Payload → PocoRead}
  {es : List Event}

/-- There is a response where there is a socket or will be one, and what the client was told of it
goes with its state. -/
structure Counted (s : Session) : Prop where
  answered : s.socket.isSome = true ∨ 0 < s.connecting → s.response.isSome = true
  connected : s.connected = s.socket.isSome
  counted : ∀ a ∈ s.response, s.finished.length = a.done.toNat + s.late
  last : ∀ a ∈ s.response, a.done = true → s.finished.getLast? = a.state

/-- Something will still happen to a response that is not done, or the client has been told that
it will not. -/
def Awaited (s : Session) : Prop :=
  ∀ a ∈ s.response, a.done = false →
    s.socket.isSome = true ∨ 0 < s.connecting ∨ 0 < s.connectFailed

theorem finish_of_null (h : s.response = none) : s.finish state = s := by
  rw [finish, h]

theorem finish_of_done (h : s.response = some a) (hdone : a.done = true) :
    s.finish state = s := by
  rw [finish, h]
  exact if_pos hdone

/-- A response that was not done is, and the client is told once. -/
theorem finish_of_open (h : s.response = some a) (hopen : a.done = false) (state : FinalState) :
    (s.finish state).response = some { a with state := some state } ∧
      (s.finish state).finished = s.finished ++ [state] ∧ (s.finish state).late = s.late ∧
      (s.finish state).socket.isSome =
        (s.socket.isSome && a.response.header.getConnectionToken != .close) ∧
      (s.connected = s.socket.isSome →
        (s.finish state).connected = (s.finish state).socket.isSome) := by
  rw [finish, h]
  simp only [hopen, Bool.false_eq_true, if_false]
  split
  · rename_i hclose
    exact ⟨rfl, rfl, rfl, by rw [hclose]; exact (Bool.and_false _).symm, fun _ => rfl⟩
  · rename_i hclose
    have hsocket : (callOnFinished { s with response := some { a with state := some state } }
        state).socket.isSome = s.socket.isSome := by
      simp only [callOnFinished]
      split
      · exact Option.isSome_map ..
      · rfl
    refine ⟨rfl, rfl, rfl, ?_, fun hconnected => hconnected.trans hsocket.symm⟩
    rw [hsocket, bne_iff_ne.mpr hclose, Bool.and_true]

theorem Counted.finish (h : s.Counted) (state : FinalState) : (s.finish state).Counted := by
  cases hresponse : s.response with
  | none => rwa [finish_of_null hresponse]
  | some a =>
      cases hdone : a.done with
      | true => rwa [finish_of_done hresponse hdone]
      | false =>
          obtain ⟨hnew, hfinished, hlate, -, hconnected⟩ :=
            finish_of_open hresponse hdone state
          have hcounted := h.counted a hresponse
          rw [hdone] at hcounted
          refine ⟨fun _ => by rw [hnew]; rfl, hconnected h.connected, fun a' ha' => ?_,
            fun a' ha' _ => ?_⟩
          all_goals
            rw [hnew, Option.mem_some_iff] at ha'
            subst ha'
            rw [hfinished]
          · rw [hlate, List.length_append, hcounted]
            show 0 + s.late + 1 = 1 + s.late
            omega
          · exact List.getLast?_concat

/-- Nothing is awaited once the response has been finished. -/
theorem awaited_finish (s : Session) (state : FinalState) : (s.finish state).Awaited := by
  intro a ha hopen
  cases hresponse : s.response with
  | none =>
      rw [finish_of_null hresponse, hresponse] at ha
      cases ha
  | some b =>
      cases hdone : b.done with
      | true =>
          rw [finish_of_done hresponse hdone, hresponse, Option.mem_some_iff] at ha
          rw [← ha, hdone] at hopen
          cases hopen
      | false =>
          rw [(finish_of_open hresponse hdone _).1, Option.mem_some_iff] at ha
          rw [← ha] at hopen
          cases hopen

theorem Counted.disconnect (h : s.Counted) : s.disconnect.Counted where
  answered hlive := h.answered (hlive.imp (fun hsocket => by cases hsocket) id)
  connected := rfl
  counted := h.counted
  last := h.last

theorem Counted.onDisconnect (h : s.Counted) : s.onDisconnect.Counted := h.disconnect.finish _

theorem awaited_onDisconnect (s : Session) : s.onDisconnect.Awaited := awaited_finish _ _

theorem Counted.readData (h : s.Counted) (hresponse : s.response = some a) {data : Payload} :
    (s.readData poco a data).Counted := by
  have hcounted := h.counted a hresponse
  have hlate : s.finished.length = if a.done then s.late + 1 else s.late := by
    cases hdone : a.done with
    | true =>
        rw [hdone] at hcounted
        exact hcounted.trans (Nat.add_comm _ _)
    | false =>
        rw [hdone] at hcounted
        exact hcounted.trans (Nat.zero_add _)
  rw [Session.readData]
  split
  · refine Counted.onDisconnect ⟨fun _ => rfl, h.connected, fun b hb => ?_, fun b hb hdone => ?_⟩
    · rw [← Option.mem_some_iff.mp hb]
      exact hlate.trans (Nat.zero_add _).symm
    · rw [← Option.mem_some_iff.mp hb] at hdone
      cases hdone
  · rename_i r rest hread
    have hbase : Session.Counted { s with
        late := if a.done then s.late + 1 else s.late
        response := some ⟨r, none⟩
        socket := s.socket.map fun socket => { socket with inBuffer := rest } } := by
      refine ⟨fun _ => rfl, ?_, fun b hb => ?_, fun b hb hdone => ?_⟩
      · rw [h.connected]
        exact (Option.isSome_map ..).symm
      · rw [← Option.mem_some_iff.mp hb]
        exact hlate.trans (Nat.zero_add _).symm
      · rw [← Option.mem_some_iff.mp hb] at hdone
        cases hdone
    dsimp only
    split
    · exact hbase.finish _
    · exact hbase

theorem awaited_readData (hsocket : s.socket.isSome = true) (data : Payload) :
    (s.readData poco a data).Awaited := by
  rw [Session.readData]
  split
  · exact awaited_onDisconnect _
  · dsimp only
    split
    · exact awaited_finish _ _
    · intro b hb hopen
      exact .inl ((Option.isSome_map ..).trans hsocket)

theorem handleIncomingMessage_keeps (poco : Payload → PocoRead) (h : s.Counted)
    (hawaited : s.Awaited) :
    ∃ s', s.handleIncomingMessage poco = some s' ∧ s'.Counted ∧ s'.Awaited := by
  rw [Session.handleIncomingMessage]
  split
  · rename_i socket hsocket
    obtain ⟨a, ha⟩ := Option.isSome_iff_exists.mp (h.answered (.inl (by rw [hsocket]; rfl)))
    split
    · exact ⟨s, rfl, h, hawaited⟩
    · exact ⟨_, by rw [ha]; rfl, h.readData ha, awaited_readData (by rw [hsocket]; rfl) _⟩
  · exact ⟨_, rfl, h.onDisconnect, awaited_onDisconnect s⟩

theorem step_keeps {e : Event} (h : s.Counted) (hawaited : s.Awaited)
    (hstep : s.step poco e = some s') : s'.Counted ∧ s'.Awaited := by
  cases e with
  | setTimeout timeout =>
      cases hstep
      exact ⟨⟨h.answered, h.connected, h.counted, h.last⟩, hawaited⟩
  | asyncRequest now shutdown =>
      cases hstep
      have hnew : ∀ a ∈ some Answer.new, a.done = false := by simp [Answer.new, Answer.done]
      have hnot {a : Answer} (ha : a ∈ some Answer.new) (hdone : a.done = true) : False := by
        rw [hnew a ha] at hdone
        cases hdone
      rw [Session.asyncRequest]
      split
      · rename_i hconnected
        exact ⟨⟨fun _ => rfl, h.connected, fun a ha => by rw [hnew a ha]; rfl,
          fun a ha hdone => (hnot ha hdone).elim⟩, fun _ _ _ => .inl (h.connected ▸ hconnected)⟩
      · rename_i hconnected
        exact ⟨⟨fun _ => rfl, Bool.not_eq_true _ ▸ hconnected, fun a ha => by rw [hnew a ha]; rfl,
          fun a ha hdone => (hnot ha hdone).elim⟩, fun _ _ _ => .inr (.inl (Nat.succ_pos _))⟩
  | asyncConnectSuccess =>
      rw [Session.step] at hstep
      split at hstep
      · rename_i hpos
        cases hstep
        exact ⟨⟨fun _ => h.answered (.inr hpos), rfl, h.counted, h.last⟩, fun _ _ _ => .inl rfl⟩
      · cases hstep
  | asyncConnectFailed =>
      rw [Session.step] at hstep
      split at hstep
      · rename_i hpos
        cases hstep
        exact ⟨⟨fun _ => h.answered (.inr hpos), h.connected, h.counted, h.last⟩,
          fun _ _ _ => .inr (.inr (Nat.succ_pos _))⟩
      · cases hstep
  | onHandshakeFail =>
      cases hstep
      exact ⟨⟨h.answered, h.connected, h.counted, h.last⟩,
        fun _ _ _ => .inr (.inr (Nat.succ_pos _))⟩
  | receive piece =>
      cases hstep
      have hsocket : (s.receive piece).socket.isSome = s.socket.isSome := Option.isSome_map ..
      refine ⟨⟨?_, ?_, h.counted, h.last⟩, ?_⟩
      · rw [hsocket]
        exact h.answered
      · rw [hsocket]
        exact h.connected
      · intro a ha hopen
        rw [hsocket]
        exact hawaited a ha hopen
  | handleIncomingMessage =>
      obtain ⟨s₁, hs₁, hkeeps⟩ := handleIncomingMessage_keeps poco h hawaited
      cases hs₁.symm.trans hstep
      exact hkeeps
  | onDisconnect =>
      cases hstep
      exact ⟨h.onDisconnect, awaited_onDisconnect s⟩
  | checkTimeout now terminating =>
      cases hstep
      rw [Session.checkTimeout]
      split
      · exact ⟨h, hawaited⟩
      · split
        · exact ⟨h, hawaited⟩
        · split
          · exact ⟨(h.finish _).onDisconnect, awaited_onDisconnect _⟩
          · exact ⟨h, hawaited⟩

theorem counted_new : Session.new.Counted :=
  ⟨by decide, rfl, (fun _ ha => by cases ha), (fun _ ha => by cases ha)⟩

theorem run_keeps (hrun : run (step poco) .new es = some s) : s.Counted ∧ s.Awaited :=
  run_invariant (step poco) (fun _ _ _ hstep h => step_keeps h.1 h.2 hstep) hrun
    ⟨counted_new, fun _ ha => by cases ha⟩

/-- In every run the client is told once of a request that is done, with the state that it is in,
and once more for each time that data was read after that. -/
theorem run_finished (hrun : run (step poco) .new es = some s) (hresponse : s.response = some a) :
    s.finished.length = a.done.toNat + s.late ∧
      (a.done = true → s.finished.getLast? = a.state) :=
  ⟨(run_keeps hrun).1.counted a hresponse, (run_keeps hrun).1.last a hresponse⟩

/-- Something comes behind the response. -/
theorem run_finished_late : ∃ s a, run (step plainRead) .new
    [.asyncRequest 0 false, .asyncConnectSuccess, .receive shortResponse.text,
      .handleIncomingMessage, .receive ['H'], .handleIncomingMessage] = some s ∧
    s.response = some a ∧ s.finished.length = a.done.toNat + s.late ∧
      (a.done = true → s.finished.getLast? = a.state) := by
  obtain ⟨s, hs, hsome⟩ := run_reaches (step plainRead) .new
    [.asyncRequest 0 false, .asyncConnectSuccess, .receive shortResponse.text,
      .handleIncomingMessage, .receive ['H'], .handleIncomingMessage]
    (P := fun s => s.response.isSome = true) (by decide +kernel)
  obtain ⟨a, ha⟩ := Option.isSome_iff_exists.mp hsome
  exact ⟨s, a, hs, ha, run_finished hs ha⟩

/-- The session has given up the request, and has told the client so once. -/
def GivesUp (s : Session) (state : FinalState) (s' : Session) : Prop :=
  s'.response.map Answer.state = some (some state) ∧ s'.finished = s.finished ++ [state] ∧
    s'.socket = none ∧ s'.connected = false

theorem givesUp_onDisconnect (hresponse : s.response = some a) (hopen : a.done = false) :
    s.GivesUp .error s.onDisconnect := by
  obtain ⟨hnew, hfinished, -, hsocket, hconnected⟩ :=
    finish_of_open (s := s.disconnect) hresponse hopen .error
  have hnone : s.onDisconnect.socket = none :=
    Option.not_isSome_iff_eq_none.mp (Bool.not_eq_true _ ▸ hsocket)
  refine ⟨by rw [onDisconnect, hnew]; rfl, hfinished, hnone, ?_⟩
  rw [onDisconnect, hconnected rfl]
  exact congrArg Option.isSome hnone

theorem givesUp_checkTimeout {now : Nat} {terminating : Bool} (hresponse : s.response = some a)
    (hopen : a.done = false) (htimeout : s.isTimeout now terminating = true) :
    s.GivesUp .timeout (s.checkTimeout now terminating) := by
  obtain ⟨hnew, hfinished, -⟩ := finish_of_open hresponse hopen .timeout
  have hcheck : s.checkTimeout now terminating = (s.finish .timeout).disconnect := by
    rw [Session.checkTimeout, hresponse]
    simp only [hopen, Bool.false_eq_true, if_false, htimeout, if_true]
    exact finish_of_done (s := (s.finish .timeout).disconnect) hnew rfl
  rw [hcheck]
  exact ⟨by rw [disconnect, hnew]; rfl, hfinished, rfl, rfl⟩

end Session

/-! ## A response that is read as it comes -/

section

variable {r r' : Response} {p q piece delivered : Payload} {poco : Payload → PocoRead}
  {t : ResponseText}

theorem readStageBody_state (hstate : r.state = .incomplete)
    (h : r.readStageBody p = some (r', q)) (hcomplete : r'.state = .complete) :
    r'.parserStage = .finished := by
  have hend {r : Response} (hstate : r.state = .incomplete)
      (hcomplete : r.complete.state = .complete) : r.complete.parserStage = .finished := by
    rw [Response.complete] at hcomplete ⊢
    split at hcomplete
    · rename_i hstage
      rw [if_pos hstage]
      exact hstage
    · rw [hstate] at hcomplete
      cases hcomplete
  rw [Response.readStageBody] at h
  split at h
  · split at h
    · cases h
    · cases h
      rw [hstate] at hcomplete
      cases hcomplete
    · cases h
      exact hend hstate hcomplete
  · cases h
    exact hend hstate hcomplete

theorem enterBody_state (h : r.enterBody = some r') : r'.state = r.state := by
  rw [Response.enterBody] at h
  split_ifs at h <;> cases h <;> rfl

theorem readStageHeader_state (hstate : r.state = .incomplete)
    (h : r.readStageHeader poco p = some (r', q)) (hcomplete : r'.state = .complete) :
    r'.parserStage = .finished := by
  rw [Response.readStageHeader] at h
  split at h
  · split at h
    · cases h
    · exact readStageBody_state hstate h hcomplete
    · obtain ⟨r₁, henter, hbody⟩ := Option.bind_eq_some_iff.mp h
      exact readStageBody_state ((enterBody_state henter).trans hstate) hbody hcomplete
  · exact readStageBody_state hstate h hcomplete

/-- A response is complete only where the parser is at its end. -/
theorem readData_state (h : r.readData poco p = some (r', q)) (hcomplete : r'.state = .complete) :
    r'.parserStage = .finished := by
  rw [Response.readData] at h
  simp only at h
  split at h
  · split at h
    · cases h
      cases hcomplete
    · cases h
    · exact readStageHeader_state rfl h hcomplete
  · exact readStageHeader_state rfl h hcomplete

theorem ResponseAt.stage_ne (h : ResponseAt t delivered r p) : r.parserStage ≠ .finished := by
  cases h <;> intro hstage <;> cases hstage

namespace Session

variable {s : Session} {n : Nat} {pieces : List Payload}

/-- The pieces come one by one, and each is handed over when it has come. -/
def deliveries (pieces : List Payload) : List Event :=
  pieces.flatMap fun piece => [.receive piece, .handleIncomingMessage]

/-- How many pieces come behind the first that ends at `stop` or behind it. -/
def piecesBehind (stop : Nat) : Nat → List Payload → Nat
  | _, [] => 0
  | d, piece :: pieces =>
      if stop ≤ d + piece.length then pieces.length
      else piecesBehind stop (d + piece.length) pieces

/-- So much of the response has come, and it is not complete. -/
def Waits (t : ResponseText) (delivered : Payload) (s : Session) : Prop :=
  ∃ r socket, s.response = some ⟨r, none⟩ ∧ s.socket = some socket ∧ s.connected = true ∧
    s.finished = [] ∧ ResponseAt t delivered r socket.inBuffer

/-- The response was complete when so much had come, and the client was told `n` times. -/
def IsComplete (t : ResponseText) (delivered : Payload) (n : Nat) (s : Session) : Prop :=
  s.response = some ⟨(t.complete delivered).1, some .complete⟩ ∧
    s.finished = List.replicate n .complete ∧ s.connected = s.socket.isSome ∧
    s.socket.isSome = (t.header.getConnectionToken != .close)

/-- The client is told each time that a read finds the response at its end. -/
theorem isComplete_readData {a : Answer} {data rest : Payload}
    (hread : a.response.readData poco data = some ((t.complete delivered).1, rest))
    (hfinished : s.finished = List.replicate n .complete) (hconnected : s.connected = true)
    (hsocket : s.socket.isSome = true) :
    (s.readData poco a data).IsComplete t delivered (n + 1) := by
  have hstate : (t.complete delivered).1.state = .complete := rfl
  rw [Session.readData, hread]
  dsimp only
  rw [if_pos hstate]
  generalize hs : ({ s with
    late := if a.done then s.late + 1 else s.late
    response := some ⟨(t.complete delivered).1, none⟩
    socket := s.socket.map fun socket => { socket with inBuffer := rest } } : Session) = s'
  obtain ⟨hnew, hcalled, -, hleft, hcon⟩ :=
    finish_of_open (s := s') (a := ⟨(t.complete delivered).1, none⟩) (by rw [← hs]) rfl .complete
  have hold : s'.finished = s.finished := by rw [← hs]
  have halive : s'.socket.isSome = true := by
    rw [← hs]
    exact (Option.isSome_map ..).trans hsocket
  have hlive : s'.connected = true := by rw [← hs, hconnected]
  refine ⟨hnew, ?_, hcon (hlive.trans halive.symm), ?_⟩
  · rw [hcalled, hold, hfinished, List.replicate_succ']
  · rw [hleft, halive, Bool.true_and]
    rfl

theorem receive_isSome : (s.receive piece).socket.isSome = s.socket.isSome :=
  Option.isSome_map ..

theorem handleIncomingMessage_receive {a : Answer} {socket : SessionSocket}
    (hresponse : s.response = some a) (hsocket : s.socket = some socket)
    (hconnected : s.connected = true) (hne : piece ≠ []) :
    (s.receive piece).handleIncomingMessage poco =
      some ((s.receive piece).readData poco a (socket.inBuffer ++ piece)) := by
  have hdata : socket.inBuffer ++ piece ≠ [] := by simp [hne]
  have hreceived : (s.receive piece).socket =
      some { socket with inBuffer := socket.inBuffer ++ piece } := by
    rw [receive, hsocket]
    rfl
  have hkeeps : (s.receive piece).connected = true := hconnected
  have hanswer : (s.receive piece).response = some a := hresponse
  simp only [Session.handleIncomingMessage, hkeeps, hreceived, hdata, if_false, hanswer,
    Option.map_some]

theorem Waits.deliver (hframed : t.Framed) (hpoco : t.ReadsFields poco) (h : s.Waits t delivered)
    (hpiece : delivered ++ piece <+: t.text) (hne : piece ≠ []) :
    ∃ s', (s.receive piece).handleIncomingMessage poco = some s' ∧
      ((delivered ++ piece).length < t.stop ∧ s'.Waits t (delivered ++ piece) ∨
        t.stop ≤ (delivered ++ piece).length ∧ s'.IsComplete t (delivered ++ piece) 1) := by
  obtain ⟨r, socket, hresponse, hsocket, hconnected, hfinished, hat⟩ := h
  have hprefix : delivered ++ piece <+: t.text ++ [] := by rwa [List.append_nil]
  refine ⟨_, handleIncomingMessage_receive hresponse hsocket hconnected hne, ?_⟩
  rcases readData_reads hframed hpoco hat hprefix with
    ⟨hstop, hread⟩ | ⟨hlt, r', buffer, hread, hat'⟩
  · right
    refine ⟨hstop, isComplete_readData hread hfinished hconnected ?_⟩
    rw [receive_isSome, hsocket]
    rfl
  · left
    have hopen : r'.state ≠ .complete := fun hcomplete =>
      hat'.stage_ne (readData_state hread hcomplete)
    rw [Session.readData, hread]
    simp only [hopen, if_false]
    refine ⟨hlt, r', { socket with inBuffer := buffer }, rfl, ?_, hconnected, hfinished, hat'⟩
    simp only [receive, hsocket, Option.map_some]

/-- Behind its end the response is complete again with each piece, if it is still read. -/
theorem IsComplete.deliver (poco : Payload → PocoRead) (h : s.IsComplete t delivered n)
    (hne : piece ≠ []) :
    ∃ s', (s.receive piece).handleIncomingMessage poco = some s' ∧
      s'.IsComplete t delivered
        (if t.header.getConnectionToken = .close then n else n + 1) := by
  obtain ⟨hresponse, hfinished, hconnected, hsocket⟩ := h
  split
  · rename_i hclose
    rw [hclose] at hsocket
    have hnone : s.socket = none := Option.not_isSome_iff_eq_none.mp (Bool.not_eq_true _ ▸ hsocket)
    have hstay : (s.receive piece).onDisconnect = (s.receive piece).disconnect :=
      finish_of_done (s := (s.receive piece).disconnect) hresponse rfl
    refine ⟨(s.receive piece).onDisconnect, ?_, ?_⟩
    · have hreceived : (s.receive piece).socket = none := by
        rw [receive, hnone]
        rfl
      simp only [Session.handleIncomingMessage, hreceived]
      cases (s.receive piece).connected <;> rfl
    · rw [hstay]
      exact ⟨hresponse, hfinished, rfl, by rw [hclose]; rfl⟩
  · rename_i hopen
    rw [bne_iff_ne.mpr hopen] at hsocket
    obtain ⟨socket, hsome⟩ := Option.isSome_iff_exists.mp hsocket
    have hcon : s.connected = true := hconnected.trans hsocket
    refine ⟨_, handleIncomingMessage_receive hresponse hsome hcon hne, ?_⟩
    have hread : (t.complete delivered).1.readData poco (socket.inBuffer ++ piece) =
        some ((t.complete delivered).1, socket.inBuffer ++ piece) := readData_finished _
    refine isComplete_readData hread hfinished hcon ?_
    rwa [receive_isSome]

theorem run_deliveries_cons {s₁ : Session}
    (h : (s.receive piece).handleIncomingMessage poco = some s₁) (pieces : List Payload) :
    run (step poco) s (deliveries (piece :: pieces)) =
      run (step poco) s₁ (deliveries pieces) := by
  rw [deliveries, List.flatMap_cons, run_append]
  simp only [run, step, Option.bind_some, h]
  rfl

theorem IsComplete.deliveries (poco : Payload → PocoRead) (hne : ∀ piece ∈ pieces, piece ≠ [])
    (h : s.IsComplete t delivered n) :
    ∃ s', run (step poco) s (deliveries pieces) = some s' ∧
      s'.IsComplete t delivered
        (if t.header.getConnectionToken = .close then n else n + pieces.length) := by
  induction pieces generalizing s n with
  | nil => exact ⟨s, rfl, by simpa using h⟩
  | cons piece pieces ih =>
      obtain ⟨s₁, hs₁, hcomplete⟩ := h.deliver poco (hne piece List.mem_cons_self)
      obtain ⟨s', hs', hend⟩ := ih (fun p hp => hne p (List.mem_cons_of_mem _ hp)) hcomplete
      refine ⟨s', (run_deliveries_cons hs₁ pieces).trans hs', ?_⟩
      by_cases hclose : t.header.getConnectionToken = .close
      · simpa only [hclose, if_true] using hend
      · simp only [hclose, if_false] at hend ⊢
        rwa [List.length_cons, Nat.add_comm pieces.length, ← Nat.add_assoc]

theorem Waits.deliveries (hframed : t.Framed) (hpoco : t.ReadsFields poco)
    (hne : ∀ piece ∈ pieces, piece ≠ []) (hpieces : delivered ++ pieces.flatten = t.text)
    (hlt : delivered.length < t.stop) (h : s.Waits t delivered) :
    ∃ s' cut, run (step poco) s (deliveries pieces) = some s' ∧ t.stop ≤ cut.length ∧
      cut <+: t.text ∧ s'.IsComplete t cut (if t.header.getConnectionToken = .close then 1
        else 1 + piecesBehind t.stop delivered.length pieces) := by
  induction pieces generalizing s delivered with
  | nil =>
      rw [List.flatten_nil, List.append_nil] at hpieces
      rw [hpieces] at hlt
      exact absurd hframed.stop_le_length (Nat.not_le_of_lt hlt)
  | cons piece pieces ih =>
      rw [List.flatten_cons, ← List.append_assoc] at hpieces
      have hpiece : delivered ++ piece <+: t.text := hpieces ▸ List.prefix_append _ _
      have hlater : ∀ p ∈ pieces, p ≠ [] := fun p hp => hne p (List.mem_cons_of_mem _ hp)
      obtain ⟨s₁, hs₁, hnext⟩ := h.deliver hframed hpoco hpiece (hne piece List.mem_cons_self)
      rw [run_deliveries_cons hs₁, piecesBehind, ← List.length_append]
      rcases hnext with ⟨hbefore, hwaits⟩ | ⟨hstop, hcomplete⟩
      · rw [if_neg (Nat.not_le_of_lt hbefore)]
        exact ih hlater hpieces hbefore hwaits
      · rw [if_pos hstop]
        obtain ⟨s', hs', hend⟩ := hcomplete.deliveries poco hlater
        exact ⟨s', delivered ++ piece, hs', hstop, hpiece, hend⟩

/-- The body is there when the end has come. -/
theorem received_of_prefix {cut : Payload} (hstop : t.stop ≤ cut.length) (hcut : cut <+: t.text) :
    (t.body.received (cut.drop t.head.length)).body = t.body.decoded := by
  cases hbody : t.body with
  | none => rfl
  | chunked payloads chunks last trailer => rfl
  | content body =>
      have htext : t.text = t.head ++ body := by rw [ResponseText.text, hbody]; rfl
      rw [ResponseText.stop, hbody, BodyText.stop] at hstop
      have hall : cut = t.head ++ body := by
        rw [htext] at hcut
        apply hcut.eq_of_length_le
        rw [List.length_append]
        omega
      rw [hall, List.drop_left]
      rfl

/-- The new request has a connection, which is made if there was none. -/
theorem waits_asyncRequest {es : List Event} (hrun : run (step poco) .new es = some s)
    (hidle : ∀ socket ∈ s.socket, socket.inBuffer = []) (now : Nat) (shutdown : Bool) :
    ∃ s', run (step poco) s (.asyncRequest now shutdown ::
        if s.connected then [] else [.asyncConnectSuccess]) = some s' ∧ s'.Waits t [] := by
  have hconnected := (run_keeps hrun).1.connected
  cases hsocket : s.socket with
  | none =>
      rw [hsocket] at hconnected
      have hfalse : s.connected = false := hconnected
      have hnew : s.asyncRequest now shutdown =
          { s.newRequest now shutdown with socket := none, connecting := s.connecting + 1 } :=
        if_neg (Bool.not_eq_true _ ▸ hfalse)
      refine ⟨(s.asyncRequest now shutdown).asyncConnectSuccess, ?_, ?_⟩
      · rw [hfalse]
        simp only [run, step, Option.bind_some, hnew, Nat.succ_pos, if_true, Bool.false_eq_true,
          if_false]
      · rw [hnew]
        exact ⟨.empty, ⟨[], false⟩, rfl, rfl, rfl, rfl, responseAt_start t⟩
  | some socket =>
      rw [hsocket] at hconnected
      have htrue : s.connected = true := hconnected
      have hnew : s.asyncRequest now shutdown = s.newRequest now shutdown := if_pos htrue
      refine ⟨s.newRequest now shutdown, ?_, .empty, socket, rfl, hsocket, htrue, rfl, ?_⟩
      · rw [htrue]
        simp only [run, step, Option.bind_some, hnew, if_true]
      · rw [hidle socket hsocket]
        exact responseAt_start t

/-- A response that comes in pieces is read as it was sent, whatever the session was used for
before. The client is told once, and once more for each piece behind the one that ends the body,
unless the connection is closed then. -/
theorem run_response {es : List Event} {s₀ : Session} (hframed : t.Framed)
    (hpoco : t.ReadsFields poco) (hrun : run (step poco) .new es = some s₀)
    (hidle : ∀ socket ∈ s₀.socket, socket.inBuffer = []) (hne : ∀ piece ∈ pieces, piece ≠ [])
    (hpieces : pieces.flatten = t.text) (now : Nat) (shutdown : Bool) :
    ∃ s r, run (step poco) s₀ ((.asyncRequest now shutdown ::
        if s₀.connected then [] else [.asyncConnectSuccess]) ++ deliveries pieces) = some s ∧
      s.response = some ⟨r, some .complete⟩ ∧ r.statusLine = t.status.statusLine ∧
      r.header = t.header ∧ r.received.body = t.body.decoded ∧
      s.finished = List.replicate (if t.header.getConnectionToken = .close then 1
        else 1 + piecesBehind t.stop 0 pieces) .complete := by
  obtain ⟨s₁, hs₁, hwaits⟩ := waits_asyncRequest (t := t) hrun hidle now shutdown
  have hpos : ([] : Payload).length < t.stop := by
    rw [ResponseText.stop, ResponseText.head, List.length_append]
    exact Nat.add_pos_left (Nat.add_pos_right _ Nat.two_pos) _
  obtain ⟨s, cut, hs, hstop, hcut, hresponse, hfinished, -⟩ :=
    hwaits.deliveries hframed hpoco hne hpieces hpos
  refine ⟨s, _, ?_, hresponse, rfl, rfl, received_of_prefix hstop hcut, hfinished⟩
  rw [run_append, hs₁]
  exact hs

/-- A response of two elements comes in two pieces. -/
theorem run_response_shortResponse : ∃ s r, run (step plainRead) .new
    ((.asyncRequest 0 true :: if new.connected then [] else [.asyncConnectSuccess]) ++
      deliveries [shortResponse.text.take 20, shortResponse.text.drop 20]) = some s ∧
      s.response = some ⟨r, some .complete⟩ ∧
      r.statusLine = shortResponse.status.statusLine ∧ r.header = shortResponse.header ∧
      r.received.body = shortResponse.body.decoded ∧
      s.finished = List.replicate (if shortResponse.header.getConnectionToken = .close then 1
        else 1 + piecesBehind shortResponse.stop 0
          [shortResponse.text.take 20, shortResponse.text.drop 20]) .complete := by
  have hne : ∀ piece ∈ [shortResponse.text.take 20, shortResponse.text.drop 20], piece ≠ [] := by
    decide
  have hrun : run (step plainRead) .new [] = some .new := rfl
  exact run_response shortResponse_framed shortResponse_readsFields hrun
    (fun _ hsocket => by cases hsocket) hne (by simp) 0 true

end Session

end

end CoolOnline.Http
