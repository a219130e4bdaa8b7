import CoolOnline.Library.History
import CoolOnline.Library.Places

/-! # Polls of sockets

`SocketPoll` of `net/Socket.hpp` and `net/Socket.cpp`: the tasks that other threads give to a poll
under its mutex, the wakeup pipe, and the turns of `poll` in the thread of the poll. What is done
under a mutex, or in the thread of the poll alone, is one step.
-/

namespace CoolOnline.Polling

/-- What a callback does: some task, or the closure of `SocketDisposition::execute`. -/
inductive Action
  | task (id : ℕ)
  | arrive (pollCopy socket : ℕ)
deriving DecidableEq, Repr

/-- A callback, with the number of turns of its poll that were over when it was added. -/
structure CallbackFn where
  action : Action
  born : ℕ
deriving DecidableEq, Repr

/-- `SocketTransfer`, and whether it has a `_cbAfterArrivalInNewPoll`. -/
structure SocketTransfer where
  socket : ℕ
  toPoll : ℕ
  hasMove : Bool
deriving DecidableEq, Repr

/-- `SocketDisposition`, as `handlePoll` leaves it. -/
inductive Disposition
  | continue
  | closed
  | transfer (toPoll : ℕ) (hasMove : Bool)
deriving DecidableEq, Repr

/-- Where the thread of a poll is in `poll`. A turn counts if its `ppoll` did not fail. -/
inductive Turn
  | idle
  /-- `ppoll` has returned; `awake` if there was something in the wakeup pipe. -/
  | polled (pollFds : List ℕ) (awake counts : Bool)
  | drained (pollFds : List ℕ)
  | invoking (pollFds : List ℕ) (invoke : List CallbackFn) (transfers : List SocketTransfer)
  /-- The sockets at some indices have been handled, and that at `i` is next. -/
  | handling (counts : Bool) (pollFds : List ℕ) (i : ℕ) (visited : List ℕ) (itemsErased : ℕ)
deriving DecidableEq, Repr

/-- A poll, with the turns that are over, the callbacks that were added and those that were invoked,
and those that were cleared. -/
structure SocketPoll where
  pollSockets : List (Option ℕ)
  newSockets : List ℕ
  newCallbacks : List CallbackFn
  pendingTransfers : List SocketTransfer
  /-- The bytes in the wakeup pipe. -/
  pipe : ℕ
  pollStartIndex : ℕ
  turn : Turn
  turns : ℕ
  added : List CallbackFn
  invoked : List CallbackFn
  cleared : List CallbackFn
deriving DecidableEq, Repr

/-- What a step of one poll means for the sockets outside of it. -/
inductive Effect
  | silent
  /-- No poll holds these any more. -/
  | gone (sockets : List ℕ)
  /-- `SocketDisposition::execute` adds a callback to another poll. -/
  | move (toPoll socket : ℕ)
  /-- The callback inserts the socket. -/
  | insert (poll socket : ℕ)
deriving DecidableEq, Repr

/-- The socket that a callback owns. -/
def CallbackFn.socket? (fn : CallbackFn) : Option ℕ :=
  match fn.action with
  | .task _ => none
  | .arrive _ socket => some socket

/-- `SocketDisposition::execute` on a socket that its poll has let go of. -/
def Disposition.execute (socket : ℕ) : Disposition → Effect
  | .transfer toPoll true => .move toPoll socket
  | _ => .gone [socket]

def Action.effect : Action → Effect
  | .task _ => .silent
  | .arrive pollCopy socket => .insert pollCopy socket

/-- The callbacks that are being invoked. -/
def Turn.invoke : Turn → List CallbackFn
  | .invoking _ invoke _ => invoke
  | _ => []

/-- The turn is going to take what is queued. -/
def Turn.willTake : Turn → Bool
  | .polled _ awake _ => awake
  | .drained _ => true
  | _ => false

/-- The turn counts and will take nothing any more. -/
def Turn.taken : Turn → Bool
  | .polled _ awake counts => !awake && counts
  | .invoking .. => true
  | .handling counts .. => counts
  | _ => false

namespace SocketPoll

/-- What a pipe holds, and what one `read` of it takes. -/
def pipeCapacity : ℕ := 65536
def dumpSize : ℕ := 128

def new : SocketPoll := ⟨[], [], [], [], 0, 0, .idle, 0, [], [], []⟩

variable (p : SocketPoll)

def taskQueuesEmpty : Bool :=
  p.newSockets.isEmpty && p.newCallbacks.isEmpty && p.pendingTransfers.isEmpty

/-- A write to a full pipe is given up. -/
def wakeup : SocketPoll := { p with pipe := min (p.pipe + 1) pipeCapacity }

/-- The poll after a queue has grown: it is woken up if the queues were empty. -/
def queued (p' : SocketPoll) : SocketPoll := if p.taskQueuesEmpty then p'.wakeup else p'

def insertNewSocket (socket : ℕ) : SocketPoll :=
  p.queued { p with newSockets := p.newSockets ++ [socket] }

def addCallback (action : Action) : SocketPoll :=
  let fn : CallbackFn := ⟨action, p.turns⟩
  p.queued { p with newCallbacks := p.newCallbacks ++ [fn], added := p.added ++ [fn] }

def transferSocketTo (transfer : SocketTransfer) : SocketPoll :=
  p.queued { p with pendingTransfers := p.pendingTransfers ++ [transfer] }

def stop : SocketPoll :=
  wakeup { p with newCallbacks := [], cleared := p.cleared ++ p.newCallbacks }

/-! ## A turn -/

def endTurn (counts : Bool) : SocketPoll :=
  { p with turn := .idle, turns := if counts then p.turns + 1 else p.turns }

/-- The sockets are handled from a different index each time, if there are any. -/
def startHandling (counts : Bool) (pollFds : List ℕ) : SocketPoll :=
  if pollFds = [] then p.endTurn counts
  else
    let start := if pollFds.length - 1 < p.pollStartIndex + 1 then 0 else p.pollStartIndex + 1
    { p with pollStartIndex := start, turn := .handling counts pollFds start [] 0 }

/-- `setupPollFds` and `ppoll`; an empty slot among the sockets is a null pointer. -/
def ppoll (fails : Bool) : Option SocketPoll :=
  if none ∈ p.pollSockets then none
  else some { p with
    turn := .polled (p.pollSockets.filterMap id) (!fails && decide (0 < p.pipe)) !fails }

/-- The new sockets are inserted, and the callbacks and the transfers are taken. -/
def takeTasks (pollFds : List ℕ) : SocketPoll :=
  { p with
    pollSockets := p.pollSockets ++ p.newSockets.map some
    newSockets := []
    newCallbacks := []
    pendingTransfers := []
    turn := .invoking pollFds p.newCallbacks p.pendingTransfers }

/-- `transfer`; the slot of the socket is left empty. -/
def transfer (pending : SocketTransfer) (expired : Bool) : SocketPoll × Effect :=
  if expired then (p, .silent)
  else
    match p.pollSockets.findIdx? (· == some pending.socket) with
    | none => (p, .silent)
    | some i =>
        ({ p with pollSockets := p.pollSockets.set i none },
          (Disposition.transfer pending.toPoll pending.hasMove).execute pending.socket)

/-- One round of the loop that fires the poll callbacks: the sockets after it, whether an item was
erased, and what becomes of the socket. A socket whose descriptor has changed is skipped. -/
def visit (i : ℕ) (sameFd isOpen : Bool) (disposition : Disposition) : SocketPoll × ℕ × Effect :=
  match p.pollSockets[i]? with
  | none => (p, 0, .silent)
  | some none => (p, 1, .silent)
  | some (some socket) =>
      if !sameFd then (p, 0, .silent)
      else if isOpen ∧ disposition = .continue then (p, 0, .silent)
      else ({ p with pollSockets := p.pollSockets.set i none }, 1, disposition.execute socket)

/-- The slots that were left empty are removed, if the loop has come to one. -/
def eraseItems (itemsErased : ℕ) : SocketPoll :=
  if itemsErased = 0 then p
  else { p with pollSockets := p.pollSockets.filter Option.isSome }

/-- The sockets of a thread that ends are let go of. -/
def removeSockets : SocketPoll × Effect :=
  ({ p with pollSockets := [], newSockets := [] },
    .gone (p.pollSockets.filterMap id ++ p.newSockets))

end SocketPoll

inductive Event
  /-- A socket comes from outside. -/
  | insertNewSocket (socket : ℕ)
  | addTask (id : ℕ)
  | transferSocketTo (transfer : SocketTransfer)
  | wakeup
  | stop
  | removeSockets
  | ppoll (fails : Bool)
  | readPipe
  | takeTasks
  | invoke
  /-- The next transfer; the poll to go to may be no more. -/
  | transfer (expired : Bool)
  /-- All is taken care of, or there was nothing in the pipe. -/
  | startHandling
  /-- The next socket is handled, which leaves it open or not and decides about it. -/
  | handlePoll (sameFd isOpen : Bool) (disposition : Disposition)
  | endTurn
deriving DecidableEq, Repr

namespace SocketPoll

/-- One step of a poll or of those who give it tasks, if it can happen. -/
def step (p : SocketPoll) : Event → Option (SocketPoll × Effect)
  | .insertNewSocket socket => some (p.insertNewSocket socket, .silent)
  | .addTask id => some (p.addCallback (.task id), .silent)
  | .transferSocketTo transfer => some (p.transferSocketTo transfer, .silent)
  | .wakeup => some (p.wakeup, .silent)
  | .stop => some (p.stop, .gone (p.newCallbacks.filterMap CallbackFn.socket?))
  | .removeSockets =>
      match p.turn with
      | .idle => some p.removeSockets
      | _ => none
  | .ppoll fails =>
      match p.turn with
      | .idle => (p.ppoll fails).map fun p' => (p', .silent)
      | _ => none
  | .readPipe =>
      match p.turn with
      | .polled fds true _ =>
          some ({ p with pipe := p.pipe - dumpSize, turn := .drained fds }, .silent)
      | _ => none
  | .takeTasks =>
      match p.turn with
      | .drained fds => some (p.takeTasks fds, .silent)
      | _ => none
  | .invoke =>
      match p.turn with
      | .invoking fds (fn :: fns) transfers =>
          some ({ p with turn := .invoking fds fns transfers, invoked := p.invoked ++ [fn] },
            fn.action.effect)
      | _ => none
  | .transfer expired =>
      match p.turn with
      | .invoking fds [] (pending :: transfers) =>
          some (transfer { p with turn := .invoking fds [] transfers } pending expired)
      | _ => none
  | .startHandling =>
      match p.turn with
      | .invoking fds [] [] => some (p.startHandling true fds, .silent)
      | .polled fds false counts => some (p.startHandling counts fds, .silent)
      | _ => none
  | .handlePoll sameFd isOpen disposition =>
      match p.turn with
      | .handling counts fds i visited itemsErased =>
          if visited.length < fds.length then
            let (p', erased, effect) := p.visit i sameFd isOpen disposition
            let next := if i = 0 then fds.length - 1 else i - 1
            some ({ p' with
              turn := .handling counts fds next (visited ++ [i]) (itemsErased + erased) }, effect)
          else none
      | _ => none
  | .endTurn =>
      match p.turn with
      | .handling counts fds _ visited itemsErased =>
          if visited.length = fds.length then
            some ((p.eraseItems itemsErased).endTurn counts, .silent)
          else none
      | _ => none

end SocketPoll

/-- The polls of a process, with the sockets that came from outside and those that no poll holds any
more. -/
structure Polls where
  polls : List SocketPoll
  entered : List ℕ
  left : List ℕ
deriving DecidableEq, Repr

namespace Polls

def new (n : ℕ) : Polls := ⟨List.replicate n .new, [], []⟩

/-- A call on a poll, which has to be there. -/
def call (s : Polls) (k : ℕ) (f : SocketPoll → SocketPoll) : Option Polls :=
  (s.polls[k]?).map fun p => { s with polls := s.polls.set k (f p) }

def apply (s : Polls) : Effect → Option Polls
  | .silent => some s
  | .gone sockets => some { s with left := s.left ++ sockets }
  | .move toPoll socket => s.call toPoll fun p => p.addCallback (.arrive toPoll socket)
  | .insert poll socket => s.call poll fun p => p.insertNewSocket socket

/-- The sockets that an event brings in. -/
def comes : Event → List ℕ
  | .insertNewSocket socket => [socket]
  | _ => []

/-- An event of one of the polls. -/
def step (s : Polls) (e : ℕ × Event) : Option Polls :=
  (s.polls[e.1]?).bind fun p => (p.step e.2).bind fun r =>
    apply { s with polls := s.polls.set e.1 r.1, entered := s.entered ++ comes e.2 } r.2

end Polls

end CoolOnline.Polling
