import Mathlib.Data.List.Basic
import CoolOnline.Common.Protocol
import CoolOnline.Library.History

/-! # Stream sockets

`StreamSocket` of `net/Socket.hpp`: the buffers of a connection, its handler and `handlePoll`, for
whatever the handler does and whatever the reads and writes of the socket return.
-/

namespace CoolOnline.Streaming

inductive Errno
  | again
  | intr
  | pipe
  | reset
  | other
deriving DecidableEq, Repr

inductive ReadResult
  | bytes (data : Payload)
  | closed
  | failed (errno : Errno)
deriving DecidableEq, Repr

/-- A write takes so much of the block, or all of it. -/
inductive WriteResult
  | took (len : Nat)
  | failed (errno : Errno)
deriving DecidableEq, Repr

/-- What a handler does with the socket. -/
inductive Op
  | send (data : Payload) (len : Int) (doFlush : Bool)
  | sendString (str : Payload) (doFlush : Bool)
  | attemptWrites
  | eraseFirstInputBytes (count : Nat)
  | clearInput
  | ignoreInput
  | enableProcessInput (enable : Bool)
  | asyncShutdown
  | shutdownConnection
  | setHandler
  | resetHandler
  /-- With what `setsockopt` and `getsockopt` return. -/
  | setSocketBufferSize (done : Bool) (size : Int)
deriving DecidableEq, Repr

inductive Outcome
  | continue
  | closed
  | transfer
deriving DecidableEq, Repr

/-- A call of `handleIncomingMessage`, which may set the disposition; after an exception it is
closed. -/
structure HandlerCall where
  ops : List Op
  outcome : Option Outcome
deriving DecidableEq, Repr

/-- The socket, and the results of the reads and writes to come; what was sent and written, what was
received and what of it is not in the buffer any more, how often `onDisconnect` was called, and what
was not written when the socket was shut down. -/
structure StreamSocket where
  inBuffer : Payload
  outBuffer : Payload
  sendBufferSize : Nat
  shutdownSignalled : Bool
  inputProcessingEnabled : Bool
  ignoringInput : Bool
  doneDisconnect : Bool
  isShutdown : Bool
  noShutdown : Bool
  socketHandler : Bool
  reads : List ReadResult
  writes : List WriteResult
  sent : Payload
  written : Payload
  received : Payload
  consumed : Payload
  disconnects : Nat
  unsent : Payload
deriving DecidableEq, Repr

/-- What `handlePoll` is called with, and what the handler does in it. -/
structure PollEvent where
  /-- What `checkTimeout` does if it returns true. -/
  timeout : Option (List Op)
  removal : Bool
  pollIn : Bool
  pollOut : Bool
  /-- `POLLHUP`, `POLLERR` or `POLLNVAL` -/
  hangup : Bool
  reads : List ReadResult
  writes : List WriteResult
  messages : List HandlerCall
  /-- `performWrites`, for each turn of the loop in which it is called. -/
  performs : List (List Op)
  onDisconnect : List Op
deriving DecidableEq, Repr

inductive Event
  | handlePoll (e : PollEvent)
  /-- Something else on the thread of the socket. -/
  | use (ops : List Op) (writes : List WriteResult)
  | ensureDisconnected (onDisconnect : List Op) (writes : List WriteResult)
  | destroy (onDisconnect : List Op) (writes : List WriteResult)
deriving DecidableEq, Repr

namespace StreamSocket

def defaultSendBufferSize : Nat := 16 * 1024
def maximumSendBufferSize : Nat := 128 * 1024
def readSize : Nat := 16 * 1024

def new (noShutdown : Bool) : StreamSocket where
  inBuffer := []
  outBuffer := []
  sendBufferSize := defaultSendBufferSize
  shutdownSignalled := false
  inputProcessingEnabled := true
  ignoringInput := false
  doneDisconnect := false
  isShutdown := false
  noShutdown := noShutdown
  socketHandler := true
  reads := []
  writes := []
  sent := []
  written := []
  received := []
  consumed := []
  disconnects := 0
  unsent := []

/-! ## Writing and reading -/

/-- The kernel takes some of the data that is written. -/
def take (s : StreamSocket) (len : Nat) : StreamSocket :=
  { s with
    outBuffer := s.outBuffer.drop len
    written := s.written ++ s.outBuffer.take len }

/-- The loops of `writeOutgoingData`, with the results of the writes. If the size is 0, it is so in
the first turn. -/
def writeLoop : List WriteResult → StreamSocket → Option (WriteResult × StreamSocket)
  | [], s =>
      if min s.outBuffer.length s.sendBufferSize = 0 then some (.took 0, { s with writes := [] })
      else none
  | w :: ws, s =>
      let size := min s.outBuffer.length s.sendBufferSize
      if size = 0 then some (.took 0, { s with writes := w :: ws })
      else
        match w with
        | .failed errno =>
            if errno = .intr then writeLoop ws s
            else some (.failed errno, { s with writes := ws })
        | .took 0 => some (.took 0, { s with writes := ws })
        | .took (len + 1) =>
            let s := s.take (min (len + 1) size)
            if s.outBuffer = [] then some (.took (min (len + 1) size), { s with writes := ws })
            else writeLoop ws s

def writeOutgoingData (s : StreamSocket) : Option (WriteResult × StreamSocket) :=
  writeLoop s.writes s

def attemptWrites (s : StreamSocket) : Option StreamSocket :=
  if s.outBuffer = [] then some s else s.writeOutgoingData.map Prod.snd

def send (s : StreamSocket) (data : Payload) (len : Int) (doFlush : Bool) : Option StreamSocket :=
  if 0 < len then
    if len ≤ data.length then
      let s :=
        { s with
          outBuffer := s.outBuffer ++ data.take len.toNat
          sent := s.sent ++ data.take len.toNat }
      if doFlush then s.writeOutgoingData.map Prod.snd else some s
    else none
  else some s

/-- The loops of `readIncomingData`; a full block is followed by another read. -/
def readLoop : List ReadResult → StreamSocket → Option (ReadResult × StreamSocket)
  | [], _ => none
  | .failed errno :: rs, s =>
      if errno = .intr then readLoop rs s else some (.failed errno, { s with reads := rs })
  | .closed :: rs, s => some (.closed, { s with reads := rs })
  | .bytes data :: rs, s =>
      if data ≠ [] ∧ data.length ≤ readSize then
        let s :=
          { s with
            inBuffer := s.inBuffer ++ data
            received := s.received ++ data }
        if data.length = readSize then readLoop rs s
        else some (.bytes data, { s with reads := rs })
      else none

/-- It returns `false`, which is 0, if the input is ignored. -/
def readIncomingData (s : StreamSocket) : Option (ReadResult × StreamSocket) :=
  if s.ignoringInput then some (.closed, s) else readLoop s.reads s

/-! ## Shutdown -/

def setShutdown (s : StreamSocket) : StreamSocket :=
  { s with
    isShutdown := true
    unsent := if s.isShutdown then s.unsent else s.outBuffer }

/-- `syncShutdown` -/
def shutdownConnection (s : StreamSocket) : StreamSocket :=
  if s.noShutdown ∨ s.isShutdown then s else s.setShutdown

def asyncShutdown (s : StreamSocket) : StreamSocket := { s with shutdownSignalled := true }

/-! ## The handler -/

def consume (s : StreamSocket) (count : Nat) : StreamSocket :=
  { s with
    inBuffer := s.inBuffer.drop count
    consumed := s.consumed ++ s.inBuffer.take count }

def setSocketBufferSize (s : StreamSocket) (done : Bool) (size : Int) : StreamSocket :=
  if !done || size < 0 then { s with sendBufferSize := defaultSendBufferSize }
  else if maximumSendBufferSize * 2 < size then { s with sendBufferSize := maximumSendBufferSize }
  else { s with sendBufferSize := size.toNat }

def applyOp (s : StreamSocket) : Op → Option StreamSocket
  | .send data len doFlush => s.send data len doFlush
  | .sendString str doFlush => s.send str (toInt32 str.length) doFlush
  | .attemptWrites => s.attemptWrites
  | .eraseFirstInputBytes count => some (s.consume count)
  | .clearInput => some (s.consume s.inBuffer.length)
  | .ignoreInput => some { s.consume s.inBuffer.length with ignoringInput := true }
  | .enableProcessInput enable => some { s with inputProcessingEnabled := enable }
  | .asyncShutdown => some s.asyncShutdown
  | .shutdownConnection => some s.shutdownConnection
  | .setHandler => some { s with socketHandler := true }
  | .resetHandler => some { s with socketHandler := false }
  | .setSocketBufferSize done size => some (s.setSocketBufferSize done size)

/-- What a handler that is there does. -/
def call (s : StreamSocket) (ops : List Op) : Option StreamSocket :=
  if s.socketHandler then run applyOp s ops else none

def ensureDisconnected (s : StreamSocket) (onDisconnect : List Op) : Option StreamSocket :=
  if s.doneDisconnect then some s
  else
    let s := { s with doneDisconnect := true }
    if s.socketHandler then
      (run applyOp { s with disconnects := s.disconnects + 1 } onDisconnect).map fun s =>
        if s.isShutdown then s else s.asyncShutdown.shutdownConnection
    else some s

/-- The destructor. -/
def destroy (s : StreamSocket) (onDisconnect : List Op) : Option StreamSocket :=
  (s.ensureDisconnected onDisconnect).map fun s =>
    let s := { s with socketHandler := false }
    if s.shutdownSignalled then s else s.asyncShutdown.shutdownConnection

/-! ## Poll -/

/-- Output is waited for while there is some, or a shutdown to do. -/
def getPollOut (s : StreamSocket) (handlerPollOut : Bool) : Bool :=
  handlerPollOut || !s.outBuffer.isEmpty || s.shutdownSignalled

/-- Reads, and whether the connection is closed. -/
def readPhase (s : StreamSocket) (e : PollEvent) : Option (Bool × StreamSocket) :=
  if e.pollIn then
    s.readIncomingData.map fun r =>
      match r.1 with
      | .bytes _ => (false, r.2)
      | .closed => (true, r.2)
      | .failed errno =>
          if e.hangup ∧ (errno = .again ∨ errno = .intr) then (false, r.2)
          else (e.hangup || errno = .pipe || errno = .reset, r.2)
  else some (e.hangup, s)

/-- Messages are handled as long as this takes something out of the buffer. -/
def messageLoop : List HandlerCall → Nat → Outcome → StreamSocket → Option (Outcome × StreamSocket)
  | [], oldSize, outcome, s =>
      if s.inBuffer ≠ [] ∧ oldSize ≠ s.inBuffer.length ∧ s.inputProcessingEnabled then none
      else some (outcome, s)
  | c :: calls, oldSize, outcome, s =>
      if s.inBuffer ≠ [] ∧ oldSize ≠ s.inBuffer.length ∧ s.inputProcessingEnabled then
        (s.call c.ops).bind fun s' =>
          let outcome := c.outcome.getD outcome
          if outcome = .transfer then some (outcome, s')
          else messageLoop calls s.inBuffer.length outcome s'
      else some (outcome, s)

/-- Writes what there is, until no more is taken; a signalled shutdown is done when everything is
sent. -/
def writePhase (pollOut : Bool) : List (List Op) → StreamSocket → Option (Bool × StreamSocket)
  | [], _ => none
  | perform :: performs, s =>
      let capacity := s.sendBufferSize - s.outBuffer.length
      (if pollOut ∧ 0 < capacity then s.call perform else some s).bind fun s =>
        if s.shutdownSignalled ∧ s.outBuffer = [] then some (true, s.shutdownConnection)
        else if pollOut ∧ s.outBuffer ≠ [] then
          s.writeOutgoingData.bind fun r =>
            if r.1 = .failed .pipe ∨ r.1 = .failed .reset then some (true, r.2)
            else if s.outBuffer.length = r.2.outBuffer.length then some (false, r.2)
            else writePhase pollOut performs r.2
        else some (false, s)

/-- `checkTimeout` and `checkRemoval` come first; at the end the connection may be closed. -/
def handlePoll (s : StreamSocket) (e : PollEvent) : Option (Outcome × StreamSocket) :=
  let s := { s with reads := e.reads, writes := e.writes }
  if !s.socketHandler then none
  else
    match e.timeout with
    | some ops => (run applyOp s ops).map fun s => (.closed, s.setShutdown)
    | none =>
        if s.isShutdown then some (.closed, s)
        else if e.removal then
          (s.ensureDisconnected e.onDisconnect).map fun s =>
            (.closed, if s.isShutdown then s else s.asyncShutdown.shutdownConnection)
        else if !(e.pollIn || e.pollOut || e.hangup) ∧ s.inBuffer = [] then some (.continue, s)
        else do
          let (closed, s) ← s.readPhase e
          let (outcome, s) ← messageLoop e.messages 0 .continue s
          if outcome = .transfer then some (outcome, s)
          else
            let (closed', s) ← writePhase e.pollOut e.performs s
            if closed || closed' then
              (s.ensureDisconnected e.onDisconnect).map fun s => (.closed, s.setShutdown)
            else some (if s.isShutdown then .closed else outcome, s)

def step (s : StreamSocket) : Event → Option StreamSocket
  | .handlePoll e => (s.handlePoll e).map Prod.snd
  | .use ops writes => run applyOp { s with writes := writes } ops
  | .ensureDisconnected onDisconnect writes =>
      ensureDisconnected { s with writes := writes } onDisconnect
  | .destroy onDisconnect writes => destroy { s with writes := writes } onDisconnect

/-! ## Order -/

/-- What is written and what waits is what was sent, and the same of what is received. -/
structure InOrder (s : StreamSocket) : Prop where
  output : s.written ++ s.outBuffer = s.sent
  input : s.consumed ++ s.inBuffer = s.received
  once : s.disconnects ≤ s.doneDisconnect.toNat

/-- Data moves, and the connection stays as it is. -/
structure Moves (s s' : StreamSocket) : Prop where
  inOrder : s.InOrder → s'.InOrder
  isShutdown : s'.isShutdown = s.isShutdown
  noShutdown : s'.noShutdown = s.noShutdown
  unsent : s'.unsent = s.unsent
  writes : s'.writes ⊆ s.writes

variable {s s' s'' : StreamSocket}

theorem Moves.refl (s : StreamSocket) : Moves s s := ⟨id, rfl, rfl, rfl, List.Subset.refl _⟩

theorem Moves.trans (h : Moves s s') (h' : Moves s' s'') : Moves s s'' where
  inOrder := fun hs => h'.inOrder (h.inOrder hs)
  isShutdown := h'.isShutdown.trans h.isShutdown
  noShutdown := h'.noShutdown.trans h.noShutdown
  unsent := h'.unsent.trans h.unsent
  writes := List.Subset.trans h'.writes h.writes

theorem take_moves (s : StreamSocket) (len : Nat) : Moves s (s.take len) where
  inOrder := by
    intro h
    refine ⟨?_, h.input, h.once⟩
    rw [take, List.append_assoc, List.take_append_drop]
    exact h.output
  isShutdown := rfl
  noShutdown := rfl
  unsent := rfl
  writes := List.Subset.refl _

theorem consume_moves (s : StreamSocket) (count : Nat) : Moves s (s.consume count) where
  inOrder := by
    intro h
    refine ⟨h.output, ?_, h.once⟩
    rw [consume, List.append_assoc, List.take_append_drop]
    exact h.input
  isShutdown := rfl
  noShutdown := rfl
  unsent := rfl
  writes := List.Subset.refl _

theorem moves_writes {ws : List WriteResult} (hws : ws ⊆ s.writes) :
    Moves s { s with writes := ws } :=
  ⟨fun h => ⟨h.output, h.input, h.once⟩, rfl, rfl, rfl, hws⟩

theorem moves_reads (s : StreamSocket) (rs : List ReadResult) : Moves s { s with reads := rs } :=
  ⟨fun h => ⟨h.output, h.input, h.once⟩, rfl, rfl, rfl, List.Subset.refl _⟩

theorem writeLoop_moves {ws : List WriteResult} (hws : ws ⊆ s.writes)
    {r : WriteResult × StreamSocket} (h : writeLoop ws s = some r) : Moves s r.2 := by
  induction ws generalizing s with
  | nil =>
      simp only [writeLoop, Option.ite_none_right_eq_some, Option.some.injEq] at h
      obtain ⟨-, rfl⟩ := h
      exact moves_writes hws
  | cons w ws ih =>
      have hrest := (List.cons_subset.mp hws).2
      unfold writeLoop at h
      simp only at h
      split at h
      · cases h
        exact moves_writes hws
      · split at h
        · split at h
          · exact ih hrest h
          · cases h
            exact moves_writes hrest
        · cases h
          exact moves_writes hrest
        · split at h
          · cases h
            exact (take_moves s _).trans (moves_writes hrest)
          · exact (take_moves s _).trans (ih hrest h)

/-- A failure that `writeOutgoingData` returns is one of a write. -/
theorem writeLoop_failed {ws : List WriteResult} {errno : Errno}
    (h : writeLoop ws s = some (.failed errno, s')) : .failed errno ∈ ws := by
  induction ws generalizing s with
  | nil => simp [writeLoop] at h
  | cons w ws ih =>
      unfold writeLoop at h
      simp only at h
      split at h
      · cases h
      · split at h
        · split at h
          · exact List.mem_cons_of_mem _ (ih h)
          · cases h
            exact List.mem_cons_self
        · cases h
        · split at h
          · cases h
          · exact List.mem_cons_of_mem _ (ih h)

theorem send_moves {data : Payload} {len : Int} {doFlush : Bool}
    (h : s.send data len doFlush = some s') : Moves s s' := by
  unfold send at h
  split at h
  · split at h
    · have hqueue : Moves s { s with
          outBuffer := s.outBuffer ++ data.take len.toNat
          sent := s.sent ++ data.take len.toNat } := by
        refine ⟨?_, rfl, rfl, rfl, List.Subset.refl _⟩
        intro hs
        refine ⟨?_, hs.input, hs.once⟩
        simp only [← hs.output, List.append_assoc]
      simp only at h
      split at h
      · obtain ⟨r, hr, rfl⟩ := Option.map_eq_some_iff.mp h
        exact hqueue.trans (writeLoop_moves (List.Subset.refl _) hr)
      · cases h
        exact hqueue
    · cases h
  · cases h
    exact .refl s

theorem attemptWrites_moves (h : s.attemptWrites = some s') : Moves s s' := by
  unfold attemptWrites at h
  split at h
  · cases h
    exact .refl s
  · obtain ⟨r, hr, rfl⟩ := Option.map_eq_some_iff.mp h
    exact writeLoop_moves (List.Subset.refl _) hr

theorem readLoop_moves {rs : List ReadResult} {r : ReadResult × StreamSocket}
    (h : readLoop rs s = some r) : Moves s r.2 := by
  induction rs generalizing s with
  | nil => cases h
  | cons result rs ih =>
      cases result with
      | failed errno =>
          simp only [readLoop] at h
          split at h
          · exact ih h
          · cases h
            exact moves_reads s rs
      | closed =>
          cases h
          exact moves_reads s rs
      | bytes data =>
          simp only [readLoop, Option.ite_none_right_eq_some] at h
          obtain ⟨-, h⟩ := h
          have hread : Moves s { s with
              inBuffer := s.inBuffer ++ data
              received := s.received ++ data } := by
            refine ⟨?_, rfl, rfl, rfl, List.Subset.refl _⟩
            intro hs
            refine ⟨hs.output, ?_, hs.once⟩
            simp only [← hs.input, List.append_assoc]
          split at h
          · exact hread.trans (ih h)
          · cases h
            exact hread.trans (moves_reads _ rs)

theorem readPhase_moves {e : PollEvent} {r : Bool × StreamSocket}
    (h : s.readPhase e = some r) : Moves s r.2 := by
  unfold readPhase at h
  split at h
  · obtain ⟨r', hr', rfl⟩ := Option.map_eq_some_iff.mp h
    have hmoves : Moves s r'.2 := by
      unfold readIncomingData at hr'
      split at hr'
      · cases hr'
        exact .refl s
      · exact readLoop_moves hr'
    split
    · exact hmoves
    · exact hmoves
    · split <;> exact hmoves
  · cases h
    exact .refl s

/-- Only `shutdownConnection` shuts the connection down. -/
def isGentle : Op → Bool
  | .shutdownConnection => false
  | _ => true

theorem setSocketBufferSize_moves (s : StreamSocket) (done : Bool) (size : Int) :
    Moves s (s.setSocketBufferSize done size) := by
  unfold setSocketBufferSize
  split
  · exact ⟨fun h => ⟨h.output, h.input, h.once⟩, rfl, rfl, rfl, List.Subset.refl _⟩
  · split <;> exact ⟨fun h => ⟨h.output, h.input, h.once⟩, rfl, rfl, rfl, List.Subset.refl _⟩

theorem applyOp_moves {op : Op} (hop : isGentle op = true) (h : s.applyOp op = some s') :
    Moves s s' := by
  cases op with
  | send data len doFlush => exact send_moves h
  | sendString str doFlush => exact send_moves h
  | attemptWrites => exact attemptWrites_moves h
  | eraseFirstInputBytes count =>
      cases h
      exact consume_moves s count
  | clearInput =>
      cases h
      exact consume_moves s _
  | ignoreInput =>
      cases h
      have hconsume := consume_moves s s.inBuffer.length
      refine ⟨?_, rfl, rfl, rfl, List.Subset.refl _⟩
      intro hs
      have hs' := hconsume.inOrder hs
      exact ⟨hs'.output, hs'.input, hs'.once⟩
  | setSocketBufferSize done size =>
      cases h
      exact setSocketBufferSize_moves s done size
  | shutdownConnection => cases hop
  | enableProcessInput enable =>
      cases h
      exact ⟨fun h => ⟨h.output, h.input, h.once⟩, rfl, rfl, rfl, List.Subset.refl _⟩
  | asyncShutdown =>
      cases h
      exact ⟨fun h => ⟨h.output, h.input, h.once⟩, rfl, rfl, rfl, List.Subset.refl _⟩
  | setHandler =>
      cases h
      exact ⟨fun h => ⟨h.output, h.input, h.once⟩, rfl, rfl, rfl, List.Subset.refl _⟩
  | resetHandler =>
      cases h
      exact ⟨fun h => ⟨h.output, h.input, h.once⟩, rfl, rfl, rfl, List.Subset.refl _⟩

theorem InOrder.shutdownConnection (h : s.InOrder) : s.shutdownConnection.InOrder := by
  unfold StreamSocket.shutdownConnection
  split
  · exact h
  · exact ⟨h.output, h.input, h.once⟩

theorem applyOp_inOrder {op : Op} (h : s.applyOp op = some s') (hs : s.InOrder) : s'.InOrder := by
  cases hop : isGentle op with
  | true => exact (applyOp_moves hop h).inOrder hs
  | false =>
      cases op with
      | shutdownConnection =>
          cases h
          exact hs.shutdownConnection
      | _ => cases hop

/-! ## What a poll can do -/

section Relations

/-- A relation that holds when data moves, and over several steps. -/
structure Composes (R : StreamSocket → StreamSocket → Prop) : Prop where
  of_moves : ∀ {a b : StreamSocket}, Moves a b → R a b
  trans : ∀ {a b c : StreamSocket}, R a b → R b c → R a c

/-- Whatever an operation does is in the relation. -/
def Follows (R : StreamSocket → StreamSocket → Prop) (op : Op) : Prop :=
  ∀ a b : StreamSocket, applyOp a op = some b → R a b

variable {R : StreamSocket → StreamSocket → Prop}

theorem run_rel (hR : Composes R) {ops : List Op} (hops : ∀ op ∈ ops, Follows R op)
    (h : run applyOp s ops = some s') : R s s' := by
  induction ops generalizing s with
  | nil =>
      cases h
      exact hR.of_moves (.refl _)
  | cons op ops ih =>
      obtain ⟨t, hop, hrest⟩ := (run_cons_eq_some applyOp).mp h
      obtain ⟨hfirst, hlater⟩ := List.forall_mem_cons.mp hops
      exact hR.trans (hfirst s t hop) (ih hlater hrest)

theorem call_rel (hR : Composes R) {ops : List Op} (hops : ∀ op ∈ ops, Follows R op)
    (h : s.call ops = some s') : R s s' := by
  simp only [call, Option.ite_none_right_eq_some] at h
  exact run_rel hR hops h.2

theorem messageLoop_rel (hR : Composes R) {calls : List HandlerCall}
    (hops : ∀ c ∈ calls, ∀ op ∈ c.ops, Follows R op) {oldSize : Nat} {outcome : Outcome}
    {r : Outcome × StreamSocket} (h : messageLoop calls oldSize outcome s = some r) : R s r.2 := by
  induction calls generalizing s oldSize outcome with
  | nil =>
      simp only [messageLoop, Option.ite_none_left_eq_some, Option.some.injEq] at h
      obtain ⟨-, rfl⟩ := h
      exact hR.of_moves (.refl s)
  | cons c calls ih =>
      obtain ⟨hfirst, hlater⟩ := List.forall_mem_cons.mp hops
      unfold messageLoop at h
      split at h
      · obtain ⟨t, ht, h⟩ := Option.bind_eq_some_iff.mp h
        have hcall := call_rel hR hfirst ht
        simp only at h
        split at h
        · cases h
          exact hcall
        · exact hR.trans hcall (ih hlater h)
      · cases h
        exact hR.of_moves (.refl s)

/-- The loop of writes ends with the connection open, or because it is broken, or because a
shutdown was signalled and everything is written. -/
theorem writePhase_cases (hR : Composes R) {pollOut : Bool} {performs : List (List Op)}
    (hops : ∀ perform ∈ performs, ∀ op ∈ perform, Follows R op) {r : Bool × StreamSocket}
    (h : writePhase pollOut performs s = some r) : ∃ t, R s t ∧
      ((r.1 = false ∧ r.2 = t) ∨
        (r.1 = true ∧ r.2 = t ∧ ∃ u errno, R s u ∧ (errno = .pipe ∨ errno = .reset) ∧
          .failed errno ∈ u.writes) ∨
        (r.1 = true ∧ t.outBuffer = [] ∧ r.2 = t.shutdownConnection)) := by
  induction performs generalizing s with
  | nil => cases h
  | cons perform performs ih =>
      obtain ⟨hfirst, hlater⟩ := List.forall_mem_cons.mp hops
      unfold writePhase at h
      obtain ⟨t, ht, h⟩ := Option.bind_eq_some_iff.mp h
      have hperform : R s t := by
        split at ht
        · exact call_rel hR hfirst ht
        · cases ht
          exact hR.of_moves (.refl s)
      split at h
      · rename_i hdone
        cases h
        exact ⟨t, hperform, .inr (.inr ⟨rfl, hdone.2, rfl⟩)⟩
      · split at h
        · obtain ⟨w, hw, h⟩ := Option.bind_eq_some_iff.mp h
          have hwrite := hR.trans hperform
            (hR.of_moves (writeLoop_moves (List.Subset.refl _) hw))
          split at h
          · rename_i hbroken
            cases h
            obtain ⟨result, u⟩ := w
            refine ⟨u, hwrite, .inr (.inl ⟨rfl, rfl, t, ?_⟩)⟩
            rcases hbroken with hpipe | hreset
            · cases hpipe
              exact ⟨.pipe, hperform, .inl rfl, writeLoop_failed hw⟩
            · cases hreset
              exact ⟨.reset, hperform, .inr rfl, writeLoop_failed hw⟩
          · split at h
            · cases h
              exact ⟨w.2, hwrite, .inl ⟨rfl, rfl⟩⟩
            · obtain ⟨u, hu, hcases⟩ := ih hlater h
              refine ⟨u, hR.trans hwrite hu, ?_⟩
              rcases hcases with hopen | ⟨hclosed, hr, v, errno, hv, hbroken⟩ | hdone
              · exact .inl hopen
              · exact .inr (.inl ⟨hclosed, hr, v, errno, hR.trans hwrite hv, hbroken⟩)
              · exact .inr (.inr hdone)
        · cases h
          exact ⟨t, hperform, .inl ⟨rfl, rfl⟩⟩

/-- The handler is told once; a connection that is still open is shut down. -/
theorem ensureDisconnected_cases (hR : Composes R) {onDisconnect : List Op}
    (hops : ∀ op ∈ onDisconnect, Follows R op)
    (h : s.ensureDisconnected onDisconnect = some s') : ∃ t, R s t ∧
      (s' = t ∨ (t.isShutdown = false ∧ s' = t.asyncShutdown.shutdownConnection)) := by
  unfold ensureDisconnected at h
  split at h
  · cases h
    exact ⟨s, hR.of_moves (.refl s), .inl rfl⟩
  · rename_i hfirst
    simp only at h
    split at h
    · obtain ⟨t, ht, rfl⟩ := Option.map_eq_some_iff.mp h
      have htold : Moves s
          { s with
            doneDisconnect := true
            disconnects := s.disconnects + 1 } := by
        refine ⟨?_, rfl, rfl, rfl, List.Subset.refl _⟩
        intro hs
        refine ⟨hs.output, hs.input, ?_⟩
        have honce := hs.once
        simp only [Bool.not_eq_true] at hfirst
        simp only [hfirst, Bool.toNat_false, Nat.le_zero] at honce
        simp [honce]
      refine ⟨t, hR.trans (hR.of_moves htold) (run_rel hR hops ht), ?_⟩
      split
      · exact .inl rfl
      · rename_i hopen
        exact .inr ⟨by simpa using hopen, rfl⟩
    · cases h
      have hmarked : Moves s { s with doneDisconnect := true } := by
        refine ⟨?_, rfl, rfl, rfl, List.Subset.refl _⟩
        intro hs
        exact ⟨hs.output, hs.input, hs.once.trans (Bool.toNat_le _)⟩
      exact ⟨_, hR.of_moves hmarked, .inl rfl⟩

end Relations

/-! ## Every run -/

theorem composes_inOrder : Composes fun a b => a.InOrder → b.InOrder where
  of_moves := fun h => h.inOrder
  trans := fun h h' ha => h' (h ha)

theorem follows_inOrder (op : Op) : Follows (fun a b => a.InOrder → b.InOrder) op :=
  fun _ _ h => applyOp_inOrder h

theorem InOrder.setShutdown (h : s.InOrder) : s.setShutdown.InOrder :=
  ⟨h.output, h.input, h.once⟩

theorem InOrder.asyncShutdown (h : s.InOrder) : s.asyncShutdown.InOrder :=
  ⟨h.output, h.input, h.once⟩

theorem ensureDisconnected_inOrder {onDisconnect : List Op}
    (h : s.ensureDisconnected onDisconnect = some s') (hs : s.InOrder) : s'.InOrder := by
  obtain ⟨t, ht, hcases⟩ :=
    ensureDisconnected_cases composes_inOrder (fun op _ => follows_inOrder op) h
  rcases hcases with rfl | ⟨-, rfl⟩
  · exact ht hs
  · exact (ht hs).asyncShutdown.shutdownConnection

theorem writePhase_inOrder {pollOut : Bool} {performs : List (List Op)} {r : Bool × StreamSocket}
    (h : writePhase pollOut performs s = some r) (hs : s.InOrder) : r.2.InOrder := by
  obtain ⟨t, ht, ⟨-, hr⟩ | ⟨-, hr, -⟩ | ⟨-, -, hr⟩⟩ :=
    writePhase_cases composes_inOrder (fun _ _ op _ => follows_inOrder op) h
  · exact hr ▸ ht hs
  · exact hr ▸ ht hs
  · exact hr ▸ (ht hs).shutdownConnection

theorem handlePoll_inOrder {e : PollEvent} {r : Outcome × StreamSocket}
    (h : s.handlePoll e = some r) (hs : s.InOrder) : r.2.InOrder := by
  have hready : InOrder { s with reads := e.reads, writes := e.writes } :=
    ⟨hs.output, hs.input, hs.once⟩
  unfold handlePoll at h
  simp only at h
  split at h
  · cases h
  · split at h
    · obtain ⟨t, ht, rfl⟩ := Option.map_eq_some_iff.mp h
      exact (run_rel composes_inOrder (fun op _ => follows_inOrder op) ht hready).setShutdown
    · split at h
      · cases h
        exact hready
      · split at h
        · obtain ⟨t, ht, rfl⟩ := Option.map_eq_some_iff.mp h
          have htold := ensureDisconnected_inOrder ht hready
          split
          · exact htold
          · exact htold.asyncShutdown.shutdownConnection
        · split at h
          · cases h
            exact hready
          · simp only [Option.bind_eq_bind, Option.bind_eq_some_iff] at h
            obtain ⟨read, hread, ⟨outcome, t⟩, hmessages, h⟩ := h
            have ht : t.InOrder := messageLoop_rel composes_inOrder
              (fun _ _ op _ => follows_inOrder op) hmessages ((readPhase_moves hread).inOrder hready)
            split at h
            · cases h
              exact ht
            · obtain ⟨write, hwrite, h⟩ := Option.bind_eq_some_iff.mp h
              have hwritten := writePhase_inOrder hwrite ht
              split at h
              · obtain ⟨u, hu, rfl⟩ := Option.map_eq_some_iff.mp h
                exact (ensureDisconnected_inOrder hu hwritten).setShutdown
              · cases h
                exact hwritten

theorem step_inOrder {e : Event} (h : s.step e = some s') (hs : s.InOrder) : s'.InOrder := by
  cases e with
  | handlePoll e =>
      obtain ⟨r, hr, rfl⟩ := Option.map_eq_some_iff.mp h
      exact handlePoll_inOrder hr hs
  | use ops writes =>
      exact run_rel composes_inOrder (fun op _ => follows_inOrder op) h
        ⟨hs.output, hs.input, hs.once⟩
  | ensureDisconnected onDisconnect writes =>
      exact ensureDisconnected_inOrder h ⟨hs.output, hs.input, hs.once⟩
  | destroy onDisconnect writes =>
      obtain ⟨t, ht, rfl⟩ := Option.map_eq_some_iff.mp h
      have htold := ensureDisconnected_inOrder ht ⟨hs.output, hs.input, hs.once⟩
      have hreset : InOrder { t with socketHandler := false } :=
        ⟨htold.output, htold.input, htold.once⟩
      dsimp only
      split
      · exact hreset
      · exact hreset.asyncShutdown.shutdownConnection

theorem inOrder_new (noShutdown : Bool) : (new noShutdown).InOrder := ⟨rfl, rfl, Nat.le_refl 0⟩

end StreamSocket

end CoolOnline.Streaming
