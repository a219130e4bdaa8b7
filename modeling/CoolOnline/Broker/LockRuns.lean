import CoolOnline.Library.History
import CoolOnline.Broker.Locking

/-! # Lock requests and the host

The callers of `updateStorageLockState` and `updateStorageLockStateAsync`, and the WOPI host, which
takes one request at a time: a synchronous one while the broker waits for it, an asynchronous one at
any time after it is sent. Which session is chosen, and when a lock is due to be refreshed, is left
open.
-/

namespace CoolOnline.Locking

/-- What the host makes of a request: it accepts it, and the broker may not see the answer; it
answers with another code; or it is not reached. -/
inductive Exchange
  | accepts (seen : Bool)
  | refuses (statusCode : { c : Nat // c ≠ 200 }) (lockFailureReason : Option String)
  | noConnection
  | throws (what : String)

namespace Exchange

def attempt : Exchange → Attempt
  | accepts seen => .response (if seen then 200 else 0) none
  | refuses statusCode reason => .response statusCode reason
  | noConnection => .connectFailed
  | throws what => .throws what

def accepted : Exchange → Bool
  | accepts _ => true
  | _ => false

/-- It is accepted, and the broker is not told. -/
def unseen : Exchange → Bool
  | accepts seen => !seen
  | _ => false

end Exchange

structure World where
  broker : Broker
  /-- An asynchronous request that is not answered yet, with its answer once the host has it. -/
  flight : Option (Option Exchange)
  /-- The last request that the host has accepted. -/
  hostAccepted : Option LockState

inductive Event
  /-- A session comes, changes or goes. -/
  | session (id : Nat) (s : Option ClientSession)
  | initSupportsLocks
  | lockIfEditing (id : Nat) (ex : Exchange)
  | attemptLock (id : Nat) (ex : Exchange)
  /-- `disconnectSessionInternal` of the last editable session. -/
  | disconnectSession (id : Nat) (ex : Exchange)
  /-- The end of `pollThread`. -/
  | exit (id : Nat) (ex : Exchange)
  | refreshLock (id : Nat) (throws : Option String)
  /-- The host takes the asynchronous request. -/
  | host (ex : Exchange)
  | answer

namespace World

def new (sessions : OrderedMap Nat ClientSession) : World :=
  ⟨.idle ⟨false, .unlock⟩ sessions, none, none⟩

section

variable (w : World)

/-- A request of this session would be made. -/
def makes (id : Nat) (requested : LockState) : Bool :=
  w.broker.lockCtx.supportsLocks &&
    (w.broker.sessions.get id).any fun session => (Broker.refusal requested session).isNone

/-- `updateStorageLockState`, and the host. -/
def sync (id : Nat) (requested : LockState) (ex : Exchange) : World × Bool × String :=
  let (broker, succeeded, error) := w.broker.updateStorageLockState id requested ex.attempt
  ({ w with
      broker := broker
      hostAccepted :=
        if w.makes id requested && ex.accepted then some requested else w.hostAccepted },
    succeeded, error)

/-- A session is changed. -/
def tell (id : Nat) (f : ClientSession → ClientSession) : World :=
  { w with broker := { w.broker with sessions := w.broker.sessions.modify id f } }

def lockIfEditing (id : Nat) (ex : Exchange) : World :=
  if !w.broker.lockCtx.supportsLocks || w.broker.lockCtx.isLocked then w
  else
    match w.broker.sessions.get id with
    | none => w
    | some session =>
        if session.readOnly then w
        else
          let (w, succeeded, _) := w.sync id .lock ex
          if succeeded then w else w.tell id (·.setReadOnly true)

/-- `ClientSession::attemptLock`. -/
def attemptLock (id : Nat) (ex : Exchange) : World :=
  match w.broker.sessions.get id with
  | none => w
  | some session =>
      if !session.readOnly || !session.isLockFailed then w
      else
        let (w, succeeded, failReason) := w.sync id .lock ex
        if succeeded then w.tell id (·.setReadOnly false)
        else w.tell id (·.sendTextFrame ("lockfailed:" ++ failReason))

def unlockIfLocked (id : Nat) (ex : Exchange) : World :=
  if w.broker.lockCtx.isLocked then (w.sync id .unlock ex).1 else w

/-- The broker has no request of its own in progress, and the context says that a refresh is due. -/
def refreshLock (id : Nat) (throws : Option String) : World :=
  match w.broker.sessions.get id with
  | none => w
  | some session =>
      if session.expired then w
      else
        let attempt := throws.elim (.response 0 none) .throws
        let broker := (w.broker.updateStorageLockStateAsync id .lock attempt).1
        { w with
          broker := broker
          flight :=
            if w.broker.lockHttpSession.isNone && broker.lockHttpSession.isSome then some none
            else w.flight }

end

def step (w : World) : Event → Option World
  | .session id s =>
      some { w with
        broker := { w.broker with
          sessions := match s with
            | none => w.broker.sessions.delete id
            | some session => w.broker.sessions.set id session } }
  | .initSupportsLocks =>
      some { w with
        broker := { w.broker with lockCtx := { w.broker.lockCtx with supportsLocks := true } } }
  | .lockIfEditing id ex => some (w.lockIfEditing id ex)
  | .attemptLock id ex => some (w.attemptLock id ex)
  | .disconnectSession id ex => some (w.unlockIfLocked id ex)
  | .exit id ex => if w.broker.lockCtx.supportsLocks then some (w.unlockIfLocked id ex) else some w
  | .refreshLock id throws =>
      if w.broker.lockStateUpdateRequest.isNone && w.broker.lockCtx.supportsLocks &&
          w.broker.lockCtx.isLocked then
        some (w.refreshLock id throws)
      else none
  | .host ex =>
      match w.flight with
      | some none =>
          some { w with
            flight := some (some ex)
            hostAccepted := if ex.accepted then w.broker.lockHttpSession else w.hostAccepted }
      | _ => none
  | .answer =>
      match w.flight with
      | some (some ex) =>
          some { w with flight := none, broker := w.broker.lockFinished ex.attempt }
      | _ => none

/-- With no request in flight, the context is locked if the last request that the host has accepted
was a lock. -/
def LocksAgree (w : World) : Prop :=
  w.flight = none → (w.broker.lockCtx.isLocked = true ↔ w.hostAccepted = some .lock)

/-- A synchronous request is accepted only where the broker is told, or it changes nothing at the
host; and no unlock is while a refresh is in flight. -/
def undisturbedSync (w : World) (id : Nat) (requested : LockState) (ex : Exchange) : Bool :=
  !(w.makes id requested && ex.accepted) ||
    (!ex.unseen || w.hostAccepted = some requested) && (requested = .lock || w.flight.isNone)

def undisturbed (w : World) : Event → Bool
  | .lockIfEditing id ex => w.undisturbedSync id .lock ex
  | .attemptLock id ex => w.undisturbedSync id .lock ex
  | .disconnectSession id ex => w.undisturbedSync id .unlock ex
  | .exit id ex => w.undisturbedSync id .unlock ex
  | _ => true

/-! ## What a request changes of the lock context -/

section

variable {b : Broker} {id : Nat} {requested : LockState} {ex : Exchange} {w w' : World}

theorem lockState_updateLockState (ctx : LockContext) (requested : LockState) (ex : Exchange) :
    (updateLockState ctx requested ex.attempt).1 =
      if (ctx.supportsLocks && ex.accepted && !ex.unseen) = true then
        { ctx with lockState := requested }
      else ctx := by
  unfold updateLockState
  cases hsupports : ctx.supportsLocks with
  | false => simp
  | true =>
      cases ex with
      | accepts seen => cases seen <;> simp [Exchange.attempt, Exchange.accepted, Exchange.unseen]
      | refuses statusCode reason =>
          simp [Exchange.attempt, Exchange.accepted, statusCode.property]
      | noConnection => simp [Exchange.attempt, Exchange.accepted]
      | throws what => simp [Exchange.attempt, Exchange.accepted]

theorem lockCtx_handleLockResult_ok (b : Broker) (id : Nat) (ctx : LockContext)
    (attempt : Attempt) (hctx : b.lockCtx = (updateLockState ctx requested attempt).1) :
    (b.handleLockResult id (updateLockState ctx requested attempt).2).lockCtx = b.lockCtx := by
  simp only [Broker.handleLockResult]
  split_ifs with hok
  · rw [hctx]
    unfold updateLockState at hok ⊢
    split_ifs at hok ⊢
    · cases attempt with
      | response statusCode reason =>
          dsimp only at hok ⊢
          split_ifs at hok ⊢
          rfl
      | connectFailed => cases hok
      | throws what => cases hok
  · rfl

/-- A synchronous request sets the state it has asked for when it is seen to be accepted. -/
theorem sync_lockCtx (w : World) (id : Nat) (requested : LockState) (ex : Exchange) :
    (w.sync id requested ex).1.broker.lockCtx =
        (if (w.makes id requested && ex.accepted && !ex.unseen) = true then
          { w.broker.lockCtx with lockState := requested } else w.broker.lockCtx) ∧
      (w.sync id requested ex).1.broker.lockHttpSession = w.broker.lockHttpSession ∧
      (w.sync id requested ex).1.flight = w.flight ∧
      (w.sync id requested ex).1.hostAccepted =
        if (w.makes id requested && ex.accepted) = true then some requested
        else w.hostAccepted := by
  refine ⟨?_, ?_, rfl, rfl⟩
  · change (w.broker.updateStorageLockState id requested ex.attempt).1.lockCtx = _
    rw [Broker.updateStorageLockState, makes]
    cases hget : w.broker.sessions.get id with
    | none => simp
    | some session =>
        cases hallowed : Broker.refusal requested session with
        | some error => simp [hallowed]
        | none =>
            have hresult := lockCtx_handleLockResult_ok
              { w.broker with
                lockCtx := (updateLockState w.broker.lockCtx requested ex.attempt).1 } id
              w.broker.lockCtx ex.attempt rfl
            dsimp only at hresult ⊢
            simp only [hallowed]
            rw [hresult, lockState_updateLockState]
            simp [hallowed]
  · change (w.broker.updateStorageLockState id requested ex.attempt).1.lockHttpSession = _
    rw [Broker.updateStorageLockState]
    split
    · rfl
    · split
      · rfl
      · rfl

/-- Between requests the context and the host agree; while a refresh is in flight both are locked. -/
structure Agreed (w : World) : Prop where
  idle : w.LocksAgree
  refreshing : w.flight ≠ none →
    w.broker.lockCtx.lockState = .lock ∧ w.hostAccepted = some .lock ∧
      w.broker.lockHttpSession = some .lock

theorem isLocked_iff {ctx : LockContext} : ctx.isLocked = true ↔ ctx.lockState = .lock := by
  simp [LockContext.isLocked]

theorem Agreed.sync (hw : Agreed w) (hturn : w.undisturbedSync id requested ex = true) :
    Agreed (w.sync id requested ex).1 := by
  obtain ⟨hctx, hhttp, hflight, hhost⟩ := sync_lockCtx w id requested ex
  rw [undisturbedSync] at hturn
  cases hmade : w.makes id requested && ex.accepted with
  | false =>
      rw [hmade, Bool.false_and, if_neg Bool.false_ne_true] at hctx
      rw [hmade, if_neg Bool.false_ne_true] at hhost
      constructor
      · rw [LocksAgree, hflight, hctx, hhost]
        exact hw.idle
      · rw [hflight, hctx, hhost, hhttp]
        exact hw.refreshing
  | true =>
      rw [hmade, if_pos rfl] at hhost
      rw [hmade, Bool.true_and] at hctx
      simp only [hmade, Bool.not_true, Bool.false_or, Bool.and_eq_true, Bool.or_eq_true,
        Bool.not_eq_eq_eq_not, decide_eq_true_eq, Option.isNone_iff_eq_none] at hturn
      obtain ⟨hseen, hrefresh⟩ := hturn
      -- What the broker holds afterwards is what the host has accepted, or both were so before.
      have hsame : (w.sync id requested ex).1.broker.lockCtx.lockState = requested ∨
          (w.sync id requested ex).1.broker.lockCtx = w.broker.lockCtx ∧
            w.hostAccepted = some requested := by
        rcases hseen with hseen | hsame
        · rw [hseen, Bool.not_false, if_pos rfl] at hctx
          rw [hctx]
          exact .inl rfl
        · split_ifs at hctx
          · rw [hctx]
            exact .inl rfl
          · exact .inr ⟨hctx, hsame⟩
      constructor
      · rw [LocksAgree, hflight, hhost, isLocked_iff]
        intro hnone
        rcases hsame with hstate | ⟨hstate, hbefore⟩
        · rw [hstate, Option.some.injEq]
        · rw [hstate, ← isLocked_iff, hw.idle hnone, hbefore]
      · rw [hflight, hhost, hhttp]
        intro hflying
        have hlock : requested = .lock := hrefresh.resolve_right hflying
        obtain ⟨hstate, hhosted, hsession⟩ := hw.refreshing hflying
        refine ⟨?_, by rw [hlock], hsession⟩
        rcases hsame with hnew | ⟨hold, -⟩
        · rw [hnew, hlock]
        · rw [hold, hstate]

theorem Agreed.tell (hw : Agreed w) (id : Nat) (f : ClientSession → ClientSession) :
    Agreed (w.tell id f) :=
  ⟨hw.idle, hw.refreshing⟩

theorem Agreed.unlockIfLocked (hw : Agreed w) (hturn : w.undisturbedSync id .unlock ex = true) :
    Agreed (w.unlockIfLocked id ex) := by
  rw [World.unlockIfLocked]
  split_ifs
  · exact hw.sync hturn
  · exact hw

theorem Agreed.lockIfEditing (hw : Agreed w) (hturn : w.undisturbedSync id .lock ex = true) :
    Agreed (w.lockIfEditing id ex) := by
  rw [World.lockIfEditing]
  split_ifs
  · exact hw
  split
  · exact hw
  split_ifs
  · exact hw
  dsimp only
  split_ifs
  · exact hw.sync hturn
  · exact (hw.sync hturn).tell id _

theorem Agreed.attemptLock (hw : Agreed w) (hturn : w.undisturbedSync id .lock ex = true) :
    Agreed (w.attemptLock id ex) := by
  rw [World.attemptLock]
  split
  · exact hw
  split_ifs
  · exact hw
  dsimp only
  split_ifs
  · exact (hw.sync hturn).tell id _
  · exact (hw.sync hturn).tell id _

/-- A callback that reports no success changes nothing of the lock context. -/
theorem asyncLockCallback_lockCtx (b : Broker) (u : AsyncLockUpdate)
    (h : u.1 = .running ∨ u.2.status ≠ .ok) :
    (b.asyncLockCallback u).lockCtx = b.lockCtx ∧
      (b.asyncLockCallback u).lockHttpSession = b.lockHttpSession := by
  rw [Broker.asyncLockCallback]
  split
  · exact ⟨rfl, rfl⟩
  · split_ifs with hrunning
    · exact ⟨rfl, rfl⟩
    · dsimp only
      split_ifs
      · exact ⟨if_neg (h.resolve_left hrunning), rfl⟩
      · exact ⟨rfl, rfl⟩

/-- Starting an asynchronous request changes nothing of the lock context. -/
theorem async_lockCtx (b : Broker) (id : Nat) (requested : LockState) (attempt : Attempt) :
    (b.updateStorageLockStateAsync id requested attempt).1.lockCtx = b.lockCtx ∧
      ((b.updateStorageLockStateAsync id requested attempt).1.lockHttpSession =
          b.lockHttpSession ∨
        (b.updateStorageLockStateAsync id requested attempt).1.lockHttpSession =
          some requested) := by
  have hresult : (updateLockStateAsync b.lockCtx b.lockHttpSession.isSome requested
        attempt).1.1 = .running ∨
      (updateLockStateAsync b.lockCtx b.lockHttpSession.isSome requested
        attempt).1.2.status ≠ .ok := by
    unfold updateLockStateAsync
    split_ifs
    · exact .inr nofun
    · cases attempt with
      | response statusCode reason => exact .inl rfl
      | connectFailed => exact .inl rfl
      | throws what => exact .inr nofun
    · exact .inr nofun
  rw [Broker.updateStorageLockStateAsync]
  split
  · exact ⟨rfl, .inl rfl⟩
  split
  · exact ⟨rfl, .inl rfl⟩
  split_ifs
  · exact ⟨rfl, .inl rfl⟩
  generalize updateLockStateAsync b.lockCtx b.lockHttpSession.isSome requested attempt = r
    at hresult ⊢
  obtain ⟨update, started⟩ := r
  dsimp only at hresult ⊢
  obtain ⟨hctx, hhttp⟩ := asyncLockCallback_lockCtx
    { b with
      lockStateUpdateRequest := some id
      lockHttpSession := if started then some requested else b.lockHttpSession } update hresult
  refine ⟨hctx, ?_⟩
  rw [hhttp]
  cases started with
  | true => exact .inr rfl
  | false => exact .inl rfl

/-- The end of a refresh leaves a locked context locked. -/
theorem lockFinished_locked (hhttp : b.lockHttpSession = some .lock)
    (hlocked : b.lockCtx.lockState = .lock) (attempt : Attempt) :
    (b.lockFinished attempt).lockCtx.lockState = .lock := by
  cases attempt with
  | response statusCode reason =>
      simp only [Broker.lockFinished, hhttp, Broker.asyncLockCallback]
      split
      · exact hlocked
      · split_ifs
        · exact hlocked
        · simp only [Broker.handleLockResult]
          split_ifs
          · simp only [finishedUpdate]
            split_ifs <;> rfl
          · exact hlocked
        · exact hlocked
  | connectFailed =>
      simp only [Broker.lockFinished, hhttp]
      exact hlocked
  | throws what =>
      simp only [Broker.lockFinished, hhttp]
      exact hlocked

theorem Agreed.refreshLock (hw : Agreed w) (hlocked : w.broker.lockCtx.isLocked = true)
    (throws : Option String) : Agreed (w.refreshLock id throws) := by
  rw [World.refreshLock]
  split
  · exact hw
  split_ifs with hexpired
  · exact hw
  dsimp only
  generalize (throws.elim (Attempt.response 0 none) Attempt.throws) = attempt
  obtain ⟨hctx, hhttp⟩ := async_lockCtx w.broker id .lock attempt
  have hbefore : w.broker.lockCtx.lockState = .lock := isLocked_iff.mp hlocked
  split_ifs with hstarts
  · simp only [Bool.and_eq_true, Option.isNone_iff_eq_none] at hstarts
    refine ⟨nofun, fun _ => ⟨hctx ▸ hbefore, ?_, ?_⟩⟩
    · have hidle : w.flight = none := by
        by_contra hflying
        have hsession := (hw.refreshing hflying).2.2
        rw [hstarts.1] at hsession
        cases hsession
      exact (hw.idle hidle).mp hlocked
    · rcases hhttp with hold | hnew
      · have hsome := hstarts.2
        rw [hold, hstarts.1] at hsome
        cases hsome
      · exact hnew
  · constructor
    · intro hidle
      rw [hctx]
      exact hw.idle hidle
    · intro hflying
      obtain ⟨hstate, hhost, hsession⟩ := hw.refreshing hflying
      refine ⟨hctx ▸ hstate, hhost, ?_⟩
      rcases hhttp with hold | hnew
      · exact hold.trans hsession
      · exact hnew

theorem Agreed.step_ok (hw : Agreed w) {e : Event} (hstep : w.step e = some w')
    (hturn : w.undisturbed e = true) : Agreed w' := by
  cases e with
  | session id s =>
      cases hstep
      exact ⟨hw.idle, hw.refreshing⟩
  | initSupportsLocks =>
      cases hstep
      exact ⟨hw.idle, hw.refreshing⟩
  | lockIfEditing id ex =>
      cases hstep
      exact hw.lockIfEditing hturn
  | attemptLock id ex =>
      cases hstep
      exact hw.attemptLock hturn
  | disconnectSession id ex =>
      cases hstep
      exact hw.unlockIfLocked hturn
  | exit id ex =>
      rw [step] at hstep
      split_ifs at hstep
      · cases hstep
        exact hw.unlockIfLocked hturn
      · cases hstep
        exact hw
  | refreshLock id throws =>
      rw [step] at hstep
      split_ifs at hstep with hdue
      cases hstep
      simp only [Bool.and_eq_true] at hdue
      exact hw.refreshLock hdue.2 throws
  | host ex =>
      rw [step] at hstep
      split at hstep
      · rename_i hflight
        cases hstep
        obtain ⟨hstate, hhost, hsession⟩ := hw.refreshing (by simp [hflight])
        refine ⟨nofun, fun _ => ⟨hstate, ?_, hsession⟩⟩
        dsimp only
        split_ifs
        · exact hsession
        · exact hhost
      · cases hstep
  | answer =>
      rw [step] at hstep
      split at hstep
      · rename_i ex hflight
        cases hstep
        obtain ⟨hstate, hhost, hsession⟩ := hw.refreshing (by simp [hflight])
        refine ⟨fun _ => ?_, fun h => absurd rfl h⟩
        have hlocked := lockFinished_locked hsession hstate ex.attempt
        exact ⟨fun _ => hhost, fun _ => isLocked_iff.mpr hlocked⟩
      · cases hstep

end

end World

end CoolOnline.Locking
