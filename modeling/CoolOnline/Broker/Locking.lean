import CoolOnline.Library.OrderedMap

/-! # Locking the document in storage

`updateStorageLockState`, `updateStorageLockStateAsync` and `handleLockResult` of
`wsd/DocumentBroker.cpp`, over `updateLockState` and `updateLockStateAsync` of
`wsd/wopi/WopiStorage.cpp`. The time of the last lock is not modelled.
-/

namespace CoolOnline.Locking

/-- `StorageBase::LockState`. -/
inductive LockState
  | unlock
  | lock
deriving DecidableEq, Repr

/-- `LockUpdateResult::Status`. -/
inductive Status
  | unsupported
  | ok
  | unauthorized
  | failed
deriving DecidableEq, Repr

structure LockUpdateResult where
  status : Status
  requestedLockState : LockState
  reason : String
deriving DecidableEq, Repr

structure LockContext where
  supportsLocks : Bool
  lockState : LockState
deriving DecidableEq, Repr

def LockContext.isLocked (ctx : LockContext) : Bool := ctx.lockState = .lock

/-- What locking reads and changes of a session, and the frames that it has been sent. -/
structure ClientSession where
  /-- The authorization is expired. -/
  expired : Bool
  readOnly : Bool
  isLockFailed : Bool
  frames : List String
deriving DecidableEq, Repr

/-- What comes of an HTTP request: a response, with its `X-WOPI-LockFailureReason` if it has one and
code zero if nothing comes on the connection; no connection; or an exception before it is made. -/
inductive Attempt
  | response (statusCode : Nat) (lockFailureReason : Option String)
  | connectFailed
  | throws (what : String)
deriving DecidableEq, Repr

/-- `AsyncLockUpdate::State`. -/
inductive AsyncState
  | running
  | error
  | complete
deriving DecidableEq, Repr

abbrev AsyncLockUpdate := AsyncState × LockUpdateResult

namespace ClientSession

variable (s : ClientSession)

def sendTextFrame (frame : String) : ClientSession := { s with frames := s.frames ++ [frame] }

def setReadOnly (val : Bool) : ClientSession :=
  { s with readOnly := val }.sendTextFrame ("perm: " ++ if val then "readonly" else "edit")

def setLockFailed (reason : String) : ClientSession :=
  ({ s with isLockFailed := true }.setReadOnly true).sendTextFrame ("lockfailed:" ++ reason)

def invalidateAuthorizationToken : ClientSession := { s with expired := true }

end ClientSession

/-- The codes that both paths call unauthorized. -/
def unauthorized (statusCode : Nat) : Bool :=
  statusCode = 401 || statusCode = 403 || statusCode = 404

/-- `WopiStorage::updateLockState`. -/
def updateLockState (ctx : LockContext) (requested : LockState) (attempt : Attempt) :
    LockContext × LockUpdateResult :=
  if ctx.supportsLocks then
    match attempt with
    | .response statusCode reason =>
        if statusCode = 200 then ({ ctx with lockState := requested }, ⟨.ok, requested, ""⟩)
        else (ctx, ⟨.failed, requested, reason.getD ""⟩)
    | .connectFailed => (ctx, ⟨.failed, requested, ""⟩)
    | .throws what => (ctx, ⟨.failed, requested, "Internal error: " ++ what⟩)
  else (ctx, ⟨.unsupported, requested, ""⟩)

/-- What `WopiStorage::updateLockStateAsync` calls back with before it returns, and whether it has
started a request; `inProgress` if another one has not retired. -/
def updateLockStateAsync (ctx : LockContext) (inProgress : Bool) (requested : LockState)
    (attempt : Attempt) : AsyncLockUpdate × Bool :=
  if ctx.supportsLocks then
    if inProgress then ((.error, ⟨.failed, requested, "Internal error"⟩), false)
    else
      match attempt with
      | .throws _ => ((.error, ⟨.failed, requested, "Internal error"⟩), false)
      | _ => ((.running, ⟨.ok, requested, ""⟩), true)
  else ((.complete, ⟨.unsupported, requested, ""⟩), false)

/-- The finished callback of `WopiStorage::updateLockStateAsync`. -/
def finishedUpdate (requested : LockState) (statusCode : Nat) (reason : Option String) :
    AsyncLockUpdate :=
  if statusCode = 200 then (.complete, ⟨.ok, requested, ""⟩)
  else
    (.error, ⟨if unauthorized statusCode then .unauthorized else .failed, requested, reason.getD ""⟩)

/-- What `handleLockResult` does to the session. -/
def LockUpdateResult.notify (r : LockUpdateResult) (session : ClientSession) : ClientSession :=
  match r.status with
  | .unsupported => session
  | .ok => session
  | .unauthorized =>
      let session := session.invalidateAuthorizationToken
      if r.requestedLockState = .lock then session.setLockFailed r.reason else session
  | .failed => if r.requestedLockState = .lock then session.setLockFailed r.reason else session

/-- What `handleLockResult` returns. -/
def LockUpdateResult.succeeded (r : LockUpdateResult) : Bool :=
  r.status = .unsupported || r.status = .ok

/-- What is at hand of a broker that has a storage. -/
structure Broker where
  lockCtx : LockContext
  sessions : OrderedMap Nat ClientSession
  /-- The `_lockStateUpdateRequest`, by the session that has made it. -/
  lockStateUpdateRequest : Option Nat
  /-- The lock of the `_lockHttpSession`. -/
  lockHttpSession : Option LockState

namespace Broker

/-- No asynchronous request is in progress. -/
def idle (lockCtx : LockContext) (sessions : OrderedMap Nat ClientSession) : Broker :=
  ⟨lockCtx, sessions, none, none⟩

section

variable (b : Broker) (id : Nat) (requested : LockState) (attempt : Attempt)

def handleLockResult (r : LockUpdateResult) : Broker :=
  { b with
    lockCtx := if r.status = .ok then { b.lockCtx with lockState := r.requestedLockState }
      else b.lockCtx
    sessions := b.sessions.modify id r.notify }

/-- Why no request is made for a session, the same on both paths. -/
def refusal (session : ClientSession) : Option String :=
  if session.expired then some "Expired authorization token"
  else if requested = .lock && session.readOnly then some "Readonly session"
  else none

/-- Whether it has succeeded, and the error. -/
def updateStorageLockState : Broker × Bool × String :=
  match b.sessions.get id with
  | none => (b, false, "")
  | some session =>
      match refusal requested session with
      | some error => (b, false, error)
      | none =>
          let (lockCtx, result) := updateLockState b.lockCtx requested attempt
          ({ b with lockCtx := lockCtx }.handleLockResult id result, result.succeeded, "")

/-- `asyncLockCallback`; the result is dropped when the requesting session is gone. -/
def asyncLockCallback (u : AsyncLockUpdate) : Broker :=
  match b.lockStateUpdateRequest with
  | none => b
  | some requestingSession =>
      if u.1 = .running then b
      else
        let b := { b with lockStateUpdateRequest := none }
        if b.sessions.has requestingSession then b.handleLockResult requestingSession u.2 else b

def updateStorageLockStateAsync : Broker × Bool × String :=
  match b.sessions.get id with
  | none => (b, false, "")
  | some session =>
      match refusal requested session with
      | some error => (b, false, error)
      | none =>
          if b.lockStateUpdateRequest.isSome then
            (b, false, "A lock-update request is already in progress")
          else
            let (update, started) :=
              updateLockStateAsync b.lockCtx b.lockHttpSession.isSome requested attempt
            ({ b with
                lockStateUpdateRequest := some id
                lockHttpSession := if started then some requested else b.lockHttpSession
              }.asyncLockCallback update, true, "")

/-- What comes of a request that has been started: without a connection nobody is told. -/
def lockFinished : Broker :=
  match b.lockHttpSession, attempt with
  | some requested, .response statusCode reason =>
      { b with lockHttpSession := none }.asyncLockCallback
        (finishedUpdate requested statusCode reason)
  | _, _ => b

/-- An asynchronous request from its start to its end. -/
def completeAsync : Broker :=
  (b.updateStorageLockStateAsync id requested attempt).1.lockFinished attempt

end

/-- Both paths leave the same lock context and the same sessions, with what they have been told. -/
def PathsAgree (lockCtx : LockContext) (sessions : OrderedMap Nat ClientSession) (id : Nat)
    (requested : LockState) (attempt : Attempt) : Prop :=
  let b := idle lockCtx sessions
  (b.updateStorageLockState id requested attempt).1.lockCtx =
      (b.completeAsync id requested attempt).lockCtx ∧
    ∀ other, (b.updateStorageLockState id requested attempt).1.sessions.get other =
      (b.completeAsync id requested attempt).sessions.get other

/-- No request is made, or it is answered and not with an unauthorized code, or it is an unlock that
is not answered. -/
def sameResult (lockCtx : LockContext) (session : ClientSession) (requested : LockState) :
    Attempt → Bool
  | .response statusCode _ =>
      !lockCtx.supportsLocks || (refusal requested session).isSome || !unauthorized statusCode
  | _ =>
      !lockCtx.supportsLocks || (refusal requested session).isSome || requested = .unlock

/-! ## The two paths -/

section

variable {lockCtx : LockContext} {sessions : OrderedMap Nat ClientSession} {id : Nat}
  {requested : LockState} {attempt : Attempt} {session : ClientSession}

theorem get_handleLockResult {b : Broker} (r : LockUpdateResult) (other : Nat) :
    (b.handleLockResult id r).sessions.get other =
      if id = other then (b.sessions.get id).map r.notify else b.sessions.get other := by
  rw [handleLockResult, OrderedMap.get_modify]
  split_ifs with hother
  · rw [hother]
  · rfl

/-- A request that is made synchronously. -/
theorem sync_eq (hget : sessions.get id = some session) (hallowed : refusal requested session = none) :
    ((idle lockCtx sessions).updateStorageLockState id requested attempt).1 =
      (idle (updateLockState lockCtx requested attempt).1 sessions).handleLockResult id
        (updateLockState lockCtx requested attempt).2 := by
  rw [updateStorageLockState, show (idle lockCtx sessions).sessions.get id = some session from hget]
  simp only [hallowed]
  rfl

theorem has_of_get (hget : sessions.get id = some session) : sessions.has id = true := by
  rw [OrderedMap.has, hget]
  rfl

/-- A request whose result is known before it is made. -/
theorem async_eq_of_not_started (hget : sessions.get id = some session)
    (hallowed : refusal requested session = none) {state : AsyncState} {r : LockUpdateResult}
    (hupdate : updateLockStateAsync lockCtx false requested attempt = ((state, r), false))
    (hdone : state ≠ .running) :
    (idle lockCtx sessions).completeAsync id requested attempt =
      (idle lockCtx sessions).handleLockResult id r := by
  rw [completeAsync, updateStorageLockStateAsync,
    show (idle lockCtx sessions).sessions.get id = some session from hget]
  simp only [hallowed]
  rw [if_neg (by simp [idle])]
  simp only [idle, Option.isSome_none, hupdate, asyncLockCallback, if_neg hdone, lockFinished,
    has_of_get hget, if_true]
  rfl

/-- A request that is started, as it ends. -/
theorem async_eq_of_started (hget : sessions.get id = some session)
    (hallowed : refusal requested session = none) (hsupports : lockCtx.supportsLocks = true)
    (hmade : ∀ what, attempt ≠ .throws what) :
    (idle lockCtx sessions).completeAsync id requested attempt =
      match attempt with
      | .response statusCode reason =>
          (idle lockCtx sessions).handleLockResult id (finishedUpdate requested statusCode reason).2
      | _ => ⟨lockCtx, sessions, some id, some requested⟩ := by
  rw [completeAsync, updateStorageLockStateAsync,
    show (idle lockCtx sessions).sessions.get id = some session from hget]
  simp only [hallowed]
  rw [if_neg (by simp [idle])]
  cases attempt with
  | response statusCode reason =>
      have hended : (finishedUpdate requested statusCode reason).1 ≠ .running := by
        rw [finishedUpdate]
        split_ifs <;> nofun
      simp only [idle, updateLockStateAsync, hsupports, Option.isSome_none, Bool.false_eq_true,
        if_true, if_false, asyncLockCallback, lockFinished, if_neg hended, has_of_get hget]
  | connectFailed =>
      simp only [idle, updateLockStateAsync, hsupports, Option.isSome_none, Bool.false_eq_true,
        if_true, if_false, asyncLockCallback, lockFinished]
  | throws what => exact absurd rfl (hmade what)

theorem allowed_lock (hallowed : refusal .lock session = none) : session.readOnly = false := by
  cases hreadOnly : session.readOnly with
  | false => rfl
  | true =>
      rw [refusal, hreadOnly] at hallowed
      split_ifs at hallowed with _ hno
      exact absurd rfl hno

theorem allowed_expired (hallowed : refusal requested session = none) :
    session.expired = false := by
  cases hexpired : session.expired with
  | false => rfl
  | true =>
      rw [refusal, hexpired] at hallowed
      cases hallowed

end

section

variable {lockCtx : LockContext} {sessions : OrderedMap Nat ClientSession} {id : Nat}
  {requested : LockState} {session : ClientSession}

/-- A response, as both paths take it. -/
theorem pathsAgree_response (hget : sessions.get id = some session)
    (hallowed : refusal requested session = none) (hsupports : lockCtx.supportsLocks = true)
    (statusCode : Nat) (reason : Option String) :
    PathsAgree lockCtx sessions id requested (.response statusCode reason) ↔
      unauthorized statusCode = false := by
  rw [PathsAgree]
  rw [sync_eq hget hallowed, async_eq_of_started hget hallowed hsupports fun _ h => by cases h]
  rw [updateLockState, if_pos hsupports]
  dsimp only
  by_cases hok : statusCode = 200
  · subst hok
    rw [finishedUpdate, if_pos rfl]
    exact ⟨fun _ => rfl, fun _ => ⟨rfl, fun _ => rfl⟩⟩
  · rw [finishedUpdate, if_neg hok, if_neg hok]
    cases hcode : unauthorized statusCode with
    | false => exact ⟨fun _ => rfl, fun _ => ⟨rfl, fun _ => rfl⟩⟩
    | true =>
        simp only [Bool.true_eq_false, iff_false, not_and, not_forall]
        refine fun _ => ⟨id, ?_⟩
        rw [get_handleLockResult, get_handleLockResult, if_pos rfl, if_pos rfl]
        simp only [idle, hget, Option.map_some, Option.some.injEq, if_true]
        -- The token is expired on one path only.
        intro hsame
        have hexpired := congrArg ClientSession.expired hsame
        have hvalid := allowed_expired hallowed
        cases requested <;>
          simp [LockUpdateResult.notify, ClientSession.invalidateAuthorizationToken,
            ClientSession.setLockFailed, ClientSession.setReadOnly, ClientSession.sendTextFrame,
            hvalid] at hexpired

/-- No connection: the asynchronous path tells nobody. -/
theorem pathsAgree_connectFailed (hget : sessions.get id = some session)
    (hallowed : refusal requested session = none) (hsupports : lockCtx.supportsLocks = true) :
    PathsAgree lockCtx sessions id requested .connectFailed ↔ requested = .unlock := by
  rw [PathsAgree]
  rw [sync_eq hget hallowed, async_eq_of_started hget hallowed hsupports fun _ h => by cases h]
  rw [updateLockState, if_pos hsupports]
  simp only [get_handleLockResult]
  cases requested with
  | unlock =>
      refine ⟨fun _ => rfl, fun _ => ⟨rfl, fun other => ?_⟩⟩
      split_ifs with hother
      · rw [← hother]
        simp only [idle, hget]
        rfl
      · rfl
  | lock =>
      simp only [reduceCtorEq, iff_false, not_and, not_forall]
      refine fun _ => ⟨id, ?_⟩
      rw [if_pos rfl]
      simp only [idle, hget, Option.map_some, Option.some.injEq]
      intro hsame
      have hreadOnly : true = session.readOnly := congrArg ClientSession.readOnly hsame
      rw [allowed_lock hallowed] at hreadOnly
      cases hreadOnly

/-- An exception: the asynchronous path does not tell what it was. -/
theorem pathsAgree_throws (hget : sessions.get id = some session)
    (hallowed : refusal requested session = none) (hsupports : lockCtx.supportsLocks = true)
    (what : String) :
    PathsAgree lockCtx sessions id requested (.throws what) ↔ requested = .unlock := by
  have hupdate : updateLockStateAsync lockCtx false requested (.throws what) =
      ((.error, ⟨.failed, requested, "Internal error"⟩), false) := by
    simp [updateLockStateAsync, hsupports]
  rw [PathsAgree]
  rw [sync_eq hget hallowed, async_eq_of_not_started hget hallowed hupdate nofun]
  rw [updateLockState, if_pos hsupports]
  simp only [get_handleLockResult]
  cases requested with
  | unlock => exact ⟨fun _ => rfl, fun _ => ⟨rfl, fun _ => rfl⟩⟩
  | lock =>
      simp only [reduceCtorEq, iff_false, not_and, not_forall]
      refine fun _ => ⟨id, ?_⟩
      rw [if_pos rfl, if_pos rfl]
      simp only [idle, hget, Option.map_some, Option.some.injEq]
      intro hsame
      have hframes : session.frames ++ ["perm: readonly"] ++ ["lockfailed:" ++
            ("Internal error: " ++ what)] =
          session.frames ++ ["perm: readonly"] ++ ["lockfailed:" ++ "Internal error"] :=
        congrArg ClientSession.frames hsame
      have hlast := List.cons.inj (List.append_cancel_left hframes)
      have hlength := congrArg String.length hlast.1
      simp only [String.length_append] at hlength
      have hshort : "Internal error".length < "Internal error: ".length := by decide
      omega

end

end Broker

end CoolOnline.Locking
