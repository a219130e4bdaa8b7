import CoolOnline.Library.History
import Mathlib.Algebra.Order.Ring.Int
import Mathlib.Logic.Function.Basic

/-! # Fake sockets

`net/FakeSocket.cpp`: sockets inside one process, numbered like descriptors, for the mobile apps.
Descriptors `2 * i` and `2 * i + 1` are the two ends of pair `i`. Each call's locked section is one
step; `Pipe2` opens its second end after the lock is released, and `Connect` and `Accept4` may wait
inside. Polling and the log are not modelled.
-/

namespace CoolOnline.FakeSocket

abbrev Record := List UInt8

/-- The arrays are indexed by `fd & 1`. -/
structure FakeSocketPair where
  fd : Bool → Int
  listening : Bool
  connectingFd : Int
  shutdown : Bool → Bool
  readable : Bool → Bool
  buffer : Bool → List Record

inductive Errno
  | ebadf
  | eisconn
  | eio
  | econnrefused
  | eagain
  | epipe
  | enotconn
deriving DecidableEq, Repr

inductive Call
  | socket
  | pipe2
  | listen (fd : Int)
  | connect (fd₁ fd₂ : Int)
  | accept4 (fd : Int)
  | read (fd : Int) (nbytes : Nat)
  | write (fd : Int) (buf : Record)
  | shutdown (fd : Int)
  | close (fd : Int)
deriving DecidableEq, Repr

/-- What a call returns; a `Read` of nothing returns zero. -/
inductive Reply
  | error (errno : Errno)
  | ok
  | fd (fd : Int)
  | pipe (fd₀ fd₁ : Int)
  | zero
  | record (r : Record)
  | wrote (nbytes : Nat)
deriving DecidableEq, Repr

/-- A thread inside a call, with the lock released. -/
inductive Thread
  | pipe2 (i : Nat)
  | connect (fd₁ fd₂ : Int)
  | accept4 (fd : Int)
deriving DecidableEq, Repr

/-- How a locked section ends. -/
inductive Outcome
  | returns (fds : List FakeSocketPair) (reply : Reply)
  | waits (fds : List FakeSocketPair) (thread : Thread)
  | aborts

/-- The descriptor of an end. -/
def number (i : Nat) (k : Bool) : Int := 2 * i + k.toNat

namespace FakeSocketPair

/-- As allocated for index `i`. -/
def new (i : Nat) : FakeSocketPair where
  fd k := if k then -1 else number i false
  listening := false
  connectingFd := -1
  shutdown _ := false
  readable _ := false
  buffer _ := []

section

variable (pair : FakeSocketPair) (k : Bool)

/-- The second end is opened beside the first. -/
def join : FakeSocketPair :=
  { pair with fd := Function.update pair.fd true (pair.fd false + 1) }

/-- After a read, while the buffer of `k` is `rest`. -/
def take (rest : List Record) : FakeSocketPair :=
  { pair with
    buffer := Function.update pair.buffer k rest
    readable := Function.update pair.readable k
      (if pair.fd (!k) = -1 ∨ pair.shutdown (!k) then true
        else if rest = [] then false
        else pair.readable k) }

def put (r : Record) : FakeSocketPair :=
  { pair with
    buffer := Function.update pair.buffer (!k) (pair.buffer (!k) ++ [r])
    readable := Function.update pair.readable (!k) true }

def shut : FakeSocketPair :=
  { pair with
    shutdown := Function.update pair.shutdown k true
    readable := Function.update pair.readable (!k) true }

def drop : FakeSocketPair :=
  { pair with
    fd := Function.update pair.fd k (-1)
    buffer := Function.update pair.buffer k []
    readable := Function.update pair.readable (!k) true }

end

end FakeSocketPair

section

variable (fds : List FakeSocketPair)

/-- The pair that a descriptor is of, if it is in range, its index and which end it is. -/
def lookup (fd : Int) : Option (Nat × Bool × FakeSocketPair) :=
  if fd < 0 then none
  else (fds[fd.toNat / 2]?).map fun pair => (fd.toNat / 2, fd.toNat % 2 = 1, pair)

/-- The assertions of `fakeSocketDumpStateImpl`. -/
def dumpStateOk : Bool :=
  fds.zipIdx.all fun (pair, i) =>
    pair.fd false = -1 ∨
      pair.fd false = number i false ∧
        (pair.fd true = -1 ∨ pair.fd true = number i true ∧ !pair.listening)

def fakeSocketSocket : Outcome :=
  .returns (fds ++ [.new fds.length]) (.fd (number fds.length false))

def fakeSocketPipe2 : Outcome :=
  .waits (fds ++ [.new fds.length]) (.pipe2 fds.length)

/-- `fakeSocketPipe2` after it has allocated the pair. -/
def finishPipe2 (i : Nat) : Option Outcome :=
  (fds[i]?).map fun pair =>
    .returns (fds.set i pair.join) (.pipe (pair.fd false) (pair.fd false + 1))

def fakeSocketListen (fd : Int) : Outcome :=
  match lookup fds fd with
  | none => .returns fds (.error .ebadf)
  | some (i, k, pair) =>
      if pair.fd k = -1 then .returns fds (.error .ebadf)
      else if k || pair.fd true ≠ -1 then .returns fds (.error .eisconn)
      else if pair.listening then .returns fds (.error .eio)
      else .returns (fds.set i { pair with listening := true, connectingFd := -1 }) .ok

/-- `fakeSocketConnect` from its wait on, once the other end is there. -/
def finishConnect (fd₁ : Int) : Option Outcome :=
  match lookup fds fd₁ with
  | none => none
  | some (_, _, pair₁) =>
      if pair₁.fd true = -1 then none
      else if pair₁.fd true = pair₁.fd false + 1 then some (.returns fds .ok)
      else some .aborts

def fakeSocketConnect (fd₁ fd₂ : Int) : Outcome :=
  match lookup fds fd₁, lookup fds fd₂ with
  | some (i₁, k₁, _), some (i₂, k₂, pair₂) =>
      if i₁ = i₂ then .returns fds (.error .ebadf)
      else if k₁ || k₂ then .returns fds (.error .eisconn)
      else if !pair₂.listening || pair₂.connectingFd ≠ -1 then
        .returns fds (.error .econnrefused)
      else
        let fds := fds.set i₂ { pair₂ with connectingFd := fd₁ }
        (finishConnect fds fd₁).getD (.waits fds (.connect fd₁ fd₂))
  | _, _ => .returns fds (.error .ebadf)

/-- `fakeSocketAccept4` from its wait on, once something connects. -/
def finishAccept4 (fd : Int) : Option Outcome :=
  match lookup fds fd with
  | none => none
  | some (i, _, pair) =>
      if pair.connectingFd = -1 then none
      else
        match lookup fds pair.connectingFd with
        | some (j, false, pair₂) =>
            if pair₂.fd true = -1 ∧ pair₂.fd false = pair.connectingFd then
              let fds := (fds.set i { pair with connectingFd := -1 }).modify j .join
              if dumpStateOk fds then some (.returns fds (.fd (pair₂.fd false + 1)))
              else some .aborts
            else some .aborts
        | _ => some .aborts

def fakeSocketAccept4 (fd : Int) : Outcome :=
  match lookup fds fd with
  | none => .returns fds (.error .ebadf)
  | some (_, k, pair) =>
      if k then .returns fds (.error .eisconn)
      else if !pair.listening then .returns fds (.error .eio)
      else (finishAccept4 fds fd).getD (.waits fds (.accept4 fd))

/-- The length of the record is compared as an `unsigned`. -/
def fakeSocketRead (fd : Int) (nbytes : Nat) : Outcome :=
  match lookup fds fd with
  | none => .returns fds (.error .ebadf)
  | some (i, k, pair) =>
      if pair.fd k = -1 then .returns fds (.error .ebadf)
      else if pair.shutdown k then .returns fds .zero
      else if !pair.readable k then .returns fds (.error .eagain)
      else
        match pair.buffer k with
        | [] => .returns (fds.set i (pair.take k [])) .zero
        | r :: rest =>
            if nbytes < r.length % 2 ^ 32 then .returns fds (.error .eagain)
            else .returns (fds.set i (pair.take k rest)) (.record r)

def fakeSocketWrite (fd : Int) (buf : Record) : Outcome :=
  match lookup fds fd with
  | none => .returns fds (.error .ebadf)
  | some (i, k, pair) =>
      if pair.fd k = -1 then .returns fds (.error .ebadf)
      else if pair.shutdown k then .returns fds (.error .epipe)
      else .returns (fds.set i (pair.put k buf)) (.wrote buf.length)

def fakeSocketShutdown (fd : Int) : Outcome :=
  match lookup fds fd with
  | none => .returns fds (.error .ebadf)
  | some (i, k, pair) =>
      if pair.fd k = -1 then .returns fds (.error .ebadf)
      else if pair.fd (!k) = -1 then .returns fds (.error .enotconn)
      else .returns (fds.set i (pair.shut k)) .ok

def fakeSocketClose (fd : Int) : Outcome :=
  match lookup fds fd with
  | none => .returns fds (.error .ebadf)
  | some (i, k, pair) =>
      if pair.fd k = -1 then .returns fds (.error .ebadf)
      else if pair.fd k ≠ fd then .aborts
      else
        let fds := fds.set i (pair.drop k)
        if dumpStateOk fds then .returns fds .ok else .aborts

def Call.enter : Call → Outcome
  | .socket => fakeSocketSocket fds
  | .pipe2 => fakeSocketPipe2 fds
  | .listen fd => fakeSocketListen fds fd
  | .connect fd₁ fd₂ => fakeSocketConnect fds fd₁ fd₂
  | .accept4 fd => fakeSocketAccept4 fds fd
  | .read fd nbytes => fakeSocketRead fds fd nbytes
  | .write fd buf => fakeSocketWrite fds fd buf
  | .shutdown fd => fakeSocketShutdown fds fd
  | .close fd => fakeSocketClose fds fd

def Thread.resume : Thread → Option Outcome
  | .pipe2 i => finishPipe2 fds i
  | .connect fd₁ _ => finishConnect fds fd₁
  | .accept4 fd => finishAccept4 fds fd

end

def Thread.call : Thread → Call
  | .pipe2 _ => .pipe2
  | .connect fd₁ fd₂ => .connect fd₁ fd₂
  | .accept4 fd => .accept4 fd

/-- A call that has returned. -/
abbrev Report := Call × Reply

/-- The sockets, the threads inside calls, whether an assertion has failed, and the calls that have
returned, newest first. -/
structure Machine where
  fds : List FakeSocketPair
  threads : List Thread
  aborted : Bool
  history : List Report

inductive Action
  | call (c : Call)
  | resume (t : Thread)
deriving DecidableEq, Repr

namespace Machine

def new : Machine := ⟨[], [], false, []⟩

/-- A locked section of a call has ended. -/
def after (s : Machine) (c : Call) : Outcome → Machine
  | .returns fds reply => { s with fds := fds, history := (c, reply) :: s.history }
  | .waits fds t => { s with fds := fds, threads := t :: s.threads }
  | .aborts => { s with aborted := true }

def step (s : Machine) (a : Action) : Option Machine :=
  if s.aborted then none
  else
    match a with
    | .call c => some (s.after c (c.enter s.fds))
    | .resume t =>
        if t ∈ s.threads then
          (t.resume s.fds).map fun o =>
            { s with threads := s.threads.erase t }.after t.call o
        else none

end Machine

end CoolOnline.FakeSocket
