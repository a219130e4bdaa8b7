import CoolOnline.Library.History
import CoolOnline.Library.OrderedMap
import CoolOnline.Common.Protocol

/-! # Spare children

How `wsd/COOLWSD.cpp` counts the children that it has asked the forkits for: `rebalanceChildren` and
what calls it, the children that arrive, and the subforkits that come and are dropped. The calls of
one mutex are steps; waiting for a child is given up between them.
-/

namespace CoolOnline.Spawning

/-- `TotalOutstandingForks` and `OutstandingForks`. -/
structure Forks where
  total : Int
  outstanding : OrderedMap Payload Int

namespace Forks

def new : Forks := ⟨0, .empty⟩

variable (f : Forks) (configId : Payload)

def count : Int := (f.outstanding.get configId).getD 0

/-- A look at a count makes an entry of it. -/
def touch : Forks := { f with outstanding := f.outstanding.set configId (f.count configId) }

def request (number : Int) : Forks where
  total := f.total + number
  outstanding := f.outstanding.set configId (f.count configId + number)

def forget : Forks where
  total := f.total - f.count configId
  outstanding := f.outstanding.set configId 0

/-- A child has arrived, which may not have been asked for. -/
def arrive : Forks :=
  let f' := f.request configId (-1)
  if f'.count configId < 0 then f'.request configId 1 else f'

/-- `OutstandingForks.erase`. -/
def erase : Forks := { f with outstanding := f.outstanding.delete configId }

end Forks

/-- A spare child, and whether its process is there. -/
structure Child where
  pid : Nat
  configId : Payload
  alive : Bool
deriving DecidableEq, Repr

/-- A call of `rebalanceChildren`: what it was to reach, the spare children alive and the requests
outstanding for its configuration, and how many children it has asked for. -/
structure Call where
  configId : Payload
  balance : Int
  live : Int
  outstanding : Int
  asked : Int
deriving DecidableEq, Repr

structure Settings where
  numPreSpawnedChildren : Nat
  /-- `CHILD_TIMEOUT_MS`. -/
  childTimeoutMs : Nat
  isBindMountingEnabled : Bool
  idleServerSettingsTimeout : Nat
deriving DecidableEq, Repr

/-- The state of all configurations, with the times in nanoseconds. -/
structure Wsd where
  now : Nat
  childSpawnTimeoutMs : Nat
  newChildren : List Child
  forks : Forks
  lastForkRequestTimes : OrderedMap Payload Nat
  /-- The subforkits, by their pids. -/
  subForKitProcs : OrderedMap Payload Nat
  lastSubForKitBrokerExitTimes : OrderedMap Payload Nat
  /-- What is waited for in `getNewChild_Blocks`. -/
  waiting : List Payload
  /-- The calls of `rebalanceChildren` so far. -/
  calls : List Call

namespace Wsd

/-- `CHILD_SPAWN_TIMEOUT_MS` at the start. -/
def new (settings : Settings) : Wsd :=
  ⟨0, settings.childTimeoutMs * 4, [], .new, .empty, .empty, .empty, [], []⟩

section

variable (settings : Settings) (s : Wsd)

/-- `sendMessageToForKit` has somebody to send to. -/
def reachable (configId : Payload) : Bool := configId.isEmpty || s.subForKitProcs.has configId

def forkChildren (configId : Payload) (number : Int) : Wsd :=
  if 0 < number ∧ s.reachable configId then
    { s with
      forks := s.forks.request configId number
      lastForkRequestTimes := s.lastForkRequestTimes.set configId s.now }
  else s

/-- The spare children of a configuration that are counted, dead or alive. -/
def available (configId : Payload) : Int :=
  s.newChildren.countP fun child => child.configId = configId

def live (configId : Payload) : Int :=
  s.newChildren.countP fun child => child.configId = configId && child.alive

/-- The counters when children that take too long have been given up. -/
def settledForks (configId : Payload) : Forks :=
  let forks := s.forks.touch configId
  let durationMs := (s.now - (s.lastForkRequestTimes.get configId).getD 0) / 1000000
  if forks.count configId ≠ 0 ∧ s.childSpawnTimeoutMs ≤ durationMs then forks.forget configId
  else forks

/-- What is missing, counted with the children from before the cleanup. -/
def missing (configId : Payload) (balance : Int) : Int :=
  balance - s.available configId - (s.settledForks configId).count configId

/-- The number that is asked for when something is missing; it is passed as an `int`. -/
def wanted (configId : Payload) (balance : Int) : Int :=
  let rebalance := s.newChildren.any fun child => !child.alive
  if 0 < s.missing configId balance ∧
      (rebalance ∨ (s.settledForks configId).count configId = 0) then
    toInt32 (s.missing configId balance)
  else 0

def rebalanceChildren (configId : Payload) (balance : Int) : Wsd :=
  let number := s.wanted configId balance
  let call : Call :=
    { configId := configId
      balance := balance
      live := s.live configId
      outstanding := (s.settledForks configId).count configId
      asked := if 0 < number ∧ s.reachable configId then number else 0 }
  forkChildren
    { s with
      newChildren := s.newChildren.filter (·.alive)
      forks := s.settledForks configId
      calls := s.calls ++ [call] } configId number

def prespawnChildren : Wsd := s.rebalanceChildren [] settings.numPreSpawnedChildren

def addNewChild (pid : Nat) (configId : Payload) : Wsd :=
  { s with
    forks := s.forks.arrive configId
    childSpawnTimeoutMs :=
      if settings.isBindMountingEnabled then settings.childTimeoutMs else s.childSpawnTimeoutMs
    newChildren := s.newChildren ++ [⟨pid, configId, true⟩] }

/-- The state in which `onDisconnect` makes up for a kit without a document, and the configuration
of the kit, which is not known if it is no spare one. -/
def disconnected : Option Nat → Wsd × Payload
  | none => (s, [])
  | some i => ({ s with newChildren := s.newChildren.eraseIdx i },
      ((s.newChildren[i]?).map Child.configId).getD [])

def onDisconnect (i : Option Nat) : Wsd :=
  (s.disconnected i).1.rebalanceChildren (s.disconnected i).2 settings.numPreSpawnedChildren

def addSubForKit (configId : Payload) (pid : Nat) : Wsd :=
  { s with subForKitProcs := s.subForKitProcs.set configId pid }

/-- A forkit connects; the first one has no configuration. -/
def newForKit (configId : Payload) (pid : Nat) : Wsd :=
  if configId = [] then s
  else (s.addSubForKit configId pid).rebalanceChildren configId settings.numPreSpawnedChildren

def dropSubForKit (configId : Payload) : Wsd :=
  { s with
    lastSubForKitBrokerExitTimes := s.lastSubForKitBrokerExitTimes.delete configId
    forks := s.forks.erase configId
    subForKitProcs := s.subForKitProcs.delete configId }

/-- The number to reach when one child is taken. -/
def numPreSpawn : Int := toInt32 (settings.numPreSpawnedChildren + 1)

/-- `getNewChild_Blocks` up to where it waits. -/
def getNewChild (configId : Payload) : Wsd :=
  let s := if s.reachable configId then s.rebalanceChildren configId (numPreSpawn settings) else s
  { s with waiting := s.waiting ++ [configId] }

/-- The first child of a configuration, taken out by putting the last one in its place. -/
def popChild (configId : Payload) : Option (Child × List Child) :=
  (s.newChildren.findIdx? fun child => child.configId = configId).bind fun i =>
    (s.newChildren[i]?).bind fun child =>
      (s.newChildren.getLast?).map fun last => (child, (s.newChildren.set i last).dropLast)

/-- No child of a configuration has come, or only a dead one. -/
def givesUp (configId : Payload) : Bool := (s.popChild configId).all fun popped => !popped.1.alive

/-- The rest of `getNewChild_Blocks`, when a child is there or the time is up. -/
def endWait (configId : Payload) : Wsd :=
  let newChildren := ((s.popChild configId).map Prod.snd).getD s.newChildren
  let s' := { s with newChildren := newChildren }
  if s.givesUp configId ∧ configId ≠ [] ∧ s.subForKitProcs.has configId then
    s'.dropSubForKit configId
  else s'

/-- `createForKit` in front of where it rebalances; a forkit always spawns one child. -/
def launchForKit : Wsd :=
  { s with
    childSpawnTimeoutMs := settings.childTimeoutMs * 4
    forks := s.forks.request [] 1
    lastForkRequestTimes := s.lastForkRequestTimes.set [] s.now }

/-- What is to be made up for once a forkit has been launched. -/
def launchBalance : Int :=
  toInt32 (settings.numPreSpawnedChildren - (s.launchForKit settings).forks.count [])

def createForKit : Wsd :=
  if 0 < s.launchBalance settings then
    (s.launchForKit settings).rebalanceChildren [] (s.launchBalance settings)
  else s.launchForKit settings

def dropAllSubForKits : Wsd := s.subForKitProcs.keys.foldl dropSubForKit s

/-- `checkAndRestoreForKit` when the forkit has exited. -/
def restoreForKit (shutdown : Bool) : Wsd :=
  if shutdown then s.dropAllSubForKits else s.dropAllSubForKits.createForKit settings

/-- A subforkit is looked at by `cleanupDocBrokers`. -/
def cleanupSubForKit (active : List Payload) (s : Wsd) (configId : Payload) : Wsd :=
  if configId = [] ∨ configId ∈ active then s
  else if 0 < s.forks.count configId then { s with forks := s.forks.touch configId }
  else
    let exitTime := (s.lastSubForKitBrokerExitTimes.get configId).getD 0
    if s.now - exitTime < settings.idleServerSettingsTimeout then
      { s with
        forks := s.forks.touch configId
        lastSubForKitBrokerExitTimes := s.lastSubForKitBrokerExitTimes.set configId exitTime }
    else s.dropSubForKit configId

/-- Documents of some configurations are gone, and those of others are there. -/
def cleanupDocBrokers (gone active : List Payload) : Wsd :=
  let exitTimes := gone.foldl (fun times configId => times.set configId s.now)
    s.lastSubForKitBrokerExitTimes
  let s := { s with lastSubForKitBrokerExitTimes := exitTimes }
  if gone = [] then s else s.subForKitProcs.keys.foldl (cleanupSubForKit settings active) s

end

end Wsd

inductive Event
  | passes (time : Nat)
  /-- The process of a spare child is no more. -/
  | dies (i : Nat)
  | prespawnChildren
  | newChild (pid : Nat) (configId : Payload)
  | onDisconnect (i : Option Nat)
  | newForKit (configId : Payload) (pid : Nat)
  | getNewChild (configId : Payload)
  | endWait (i : Nat)
  | createForKit
  | restoreForKit (shutdown : Bool)
  | cleanupDocBrokers (gone active : List Payload)
deriving DecidableEq, Repr

namespace Wsd

variable (settings : Settings)

def step (s : Wsd) : Event → Option Wsd
  | .passes time => some { s with now := s.now + time }
  | .dies i => some { s with newChildren := s.newChildren.modify i fun child =>
      { child with alive := false } }
  | .prespawnChildren => some (s.prespawnChildren settings)
  | .newChild pid configId => some (s.addNewChild settings pid configId)
  | .onDisconnect i => some (s.onDisconnect settings i)
  | .newForKit configId pid => some (s.newForKit settings configId pid)
  | .getNewChild configId => some (s.getNewChild settings configId)
  | .endWait i => (s.waiting[i]?).map fun configId =>
      { s with waiting := s.waiting.eraseIdx i }.endWait configId
  | .createForKit => some (s.createForKit settings)
  | .restoreForKit shutdown => some (s.restoreForKit settings shutdown)
  | .cleanupDocBrokers gone active => some (s.cleanupDocBrokers settings gone active)

/-! ## What the counts are to be -/

end Wsd

/-- The total is that of all configurations, and none is below zero. -/
structure Forks.Balanced (f : Forks) : Prop where
  total : f.total = f.outstanding.values.sum
  nonneg : ∀ n ∈ f.outstanding.values, 0 ≤ n

/-- A call that asks for children asks for those that are missing. -/
def Call.Right (call : Call) : Prop :=
  0 < call.asked → call.asked = max 0 (call.balance - call.live - call.outstanding)

namespace Wsd

structure Accounts (s : Wsd) : Prop where
  forks : s.forks.Balanced
  calls : ∀ call ∈ s.calls, call.Right

/-- A call of `rebalanceChildren` asks for nothing, or no dead spare child of the configuration is
counted and what is missing is an `int`. -/
def countsLive (s : Wsd) (configId : Payload) (balance : Int) : Bool :=
  s.missing configId balance ≤ 0 ||
    s.available configId = s.live configId && s.missing configId balance < 2 ^ 31

/-- A subforkit that is given up has no requests outstanding. -/
def dropsNothing (s : Wsd) (configId : Payload) : Bool := s.forks.count configId = 0

/-- No dead spare child is counted, and no subforkit is dropped that was asked for children. -/
def inStep (settings : Settings) (s : Wsd) : Event → Bool
  | .prespawnChildren => s.countsLive [] settings.numPreSpawnedChildren
  | .onDisconnect i =>
      (s.disconnected i).1.countsLive (s.disconnected i).2 settings.numPreSpawnedChildren
  | .newForKit configId pid =>
      configId = [] ||
        (s.addSubForKit configId pid).countsLive configId settings.numPreSpawnedChildren
  | .getNewChild configId =>
      !s.reachable configId || s.countsLive configId (numPreSpawn settings)
  | .endWait i => (s.waiting[i]?).all fun configId =>
      !s.givesUp configId || configId = [] || !s.subForKitProcs.has configId ||
        s.dropsNothing configId
  | .createForKit =>
      (s.launchForKit settings).countsLive [] (s.launchBalance settings)
  | .restoreForKit shutdown =>
      s.subForKitProcs.keys.all s.dropsNothing &&
        (shutdown || (s.dropAllSubForKits.launchForKit settings).countsLive []
          (s.dropAllSubForKits.launchBalance settings))
  | _ => true

end Wsd

/-! ## How the counters go together -/

namespace Forks

variable {f : Forks} {configId : Payload} {number : Int}

theorem Balanced.count_nonneg (h : f.Balanced) (configId : Payload) : 0 ≤ f.count configId := by
  rw [count]
  cases hget : f.outstanding.get configId with
  | none => exact Int.le_refl 0
  | some n => exact h.nonneg n (OrderedMap.mem_values_of_get hget)

@[simp] theorem count_request : (f.request configId number).count configId =
    f.count configId + number := by
  simp [count, request]

theorem Balanced.request (h : f.Balanced) (hnonneg : 0 ≤ f.count configId + number) :
    (f.request configId number).Balanced := by
  constructor
  · have htotal := h.total
    simp only [Forks.request, OrderedMap.sum_values_set, count]
    omega
  · intro n hmem
    rcases OrderedMap.mem_values_set hmem with hnew | hold
    · rw [hnew]
      exact hnonneg
    · exact h.nonneg n hold

theorem touch_eq : f.touch configId = f.request configId 0 := by
  simp [touch, request]

theorem forget_eq : f.forget configId = f.request configId (-f.count configId) := by
  simp only [forget, request, Int.sub_eq_add_neg, Int.add_right_neg]

theorem Balanced.touch (h : f.Balanced) : (f.touch configId).Balanced := by
  rw [touch_eq]
  exact h.request (by simpa using h.count_nonneg configId)

theorem Balanced.forget (h : f.Balanced) : (f.forget configId).Balanced := by
  rw [forget_eq]
  exact h.request (by omega)

theorem request_request (n m : Int) :
    ((f.request configId n).request configId m) = f.request configId (n + m) := by
  simp [request, count, Int.add_assoc, OrderedMap.set_set]

theorem Balanced.arrive (h : f.Balanced) : (f.arrive configId).Balanced := by
  rw [Forks.arrive, count_request]
  split
  case isTrue =>
    -- The child was not asked for, and both counters are as before.
    rw [request_request]
    exact h.request (by simpa using h.count_nonneg configId)
  case isFalse hge => exact h.request (Int.not_lt.mp hge)

theorem Balanced.erase (h : f.Balanced) (hzero : f.count configId = 0) :
    (f.erase configId).Balanced := by
  constructor
  · have htotal := h.total
    rw [count] at hzero
    simp only [Forks.erase, OrderedMap.sum_values_delete]
    omega
  · intro n hmem
    exact h.nonneg n (OrderedMap.mem_values_filterKeys hmem)

theorem count_erase (other : Payload) :
    (f.erase configId).count other = if configId = other then 0 else f.count other := by
  simp only [count, erase, OrderedMap.get_delete]
  split <;> rfl

end Forks

namespace Wsd

variable {settings : Settings} {s s' : Wsd} {configId : Payload} {balance : Int}

/-! ### One call of `rebalanceChildren` -/

theorem balanced_settledForks (h : s.forks.Balanced) (configId : Payload) :
    (s.settledForks configId).Balanced := by
  rw [settledForks]
  split
  · exact h.touch.forget
  · exact h.touch

theorem missing_pos_of_wanted (h : 0 < s.wanted configId balance) :
    0 < s.missing configId balance ∧
      s.wanted configId balance = toInt32 (s.missing configId balance) := by
  rw [wanted] at h ⊢
  split_ifs at h ⊢ with hmissing
  · exact ⟨hmissing.1, rfl⟩
  · exact absurd h (Int.lt_irrefl 0)

/-- A call that counts right asks for what is missing. -/
theorem wanted_eq (hcounts : s.countsLive configId balance = true)
    (h : 0 < s.wanted configId balance) :
    s.wanted configId balance =
      max 0 (balance - s.live configId - (s.settledForks configId).count configId) := by
  rcases missing_pos_of_wanted h with ⟨hpos, heq⟩
  simp only [countsLive, Bool.or_eq_true, Bool.and_eq_true, decide_eq_true_eq] at hcounts
  rcases hcounts with hnothing | ⟨hlive, hint⟩
  · omega
  · rw [heq, toInt32_of_isInt32 ⟨by omega, hint⟩]
    rw [missing] at hpos ⊢
    omega

theorem Accounts.forkChildren (h : s.Accounts) (configId : Payload) (number : Int) :
    (s.forkChildren configId number).Accounts := by
  rw [Wsd.forkChildren]
  split
  case isTrue hsend =>
    have hcount := h.forks.count_nonneg configId
    exact ⟨h.forks.request (by omega), h.calls⟩
  case isFalse => exact h

theorem Accounts.rebalanceChildren (h : s.Accounts)
    (hcounts : s.countsLive configId balance = true) :
    (s.rebalanceChildren configId balance).Accounts := by
  rw [Wsd.rebalanceChildren]
  apply Accounts.forkChildren
  refine ⟨balanced_settledForks h.forks configId, ?_⟩
  intro call hmem
  rcases List.mem_append.mp hmem with hold | hnew
  · exact h.calls call hold
  · rw [List.mem_singleton.mp hnew]
    intro hasked
    dsimp only at hasked ⊢
    split at hasked
    case isTrue hsend =>
      rw [if_pos hsend]
      exact wanted_eq hcounts hsend.1
    case isFalse => exact absurd hasked (Int.lt_irrefl 0)

/-! ### The other steps -/

theorem Accounts.dropSubForKit (h : s.Accounts) (hzero : s.forks.count configId = 0) :
    (s.dropSubForKit configId).Accounts :=
  ⟨h.forks.erase hzero, h.calls⟩

theorem Accounts.foldl_dropSubForKit {configIds : List Payload} (h : s.Accounts)
    (hzero : ∀ configId ∈ configIds, s.forks.count configId = 0) :
    (configIds.foldl Wsd.dropSubForKit s).Accounts := by
  induction configIds generalizing s with
  | nil => exact h
  | cons configId configIds ih =>
      refine ih (h.dropSubForKit (hzero configId List.mem_cons_self)) ?_
      intro other hmem
      rw [Wsd.dropSubForKit, Forks.count_erase]
      split
      · rfl
      · exact hzero other (List.mem_cons_of_mem _ hmem)

theorem Accounts.cleanupSubForKit (h : s.Accounts) (active : List Payload) (configId : Payload) :
    (s.cleanupSubForKit settings active configId).Accounts := by
  rw [Wsd.cleanupSubForKit]
  split
  case isTrue => exact h
  case isFalse =>
    split
    case isTrue => exact ⟨h.forks.touch, h.calls⟩
    case isFalse hnone =>
      dsimp only
      split
      case isTrue => exact ⟨h.forks.touch, h.calls⟩
      case isFalse =>
        have hcount := h.forks.count_nonneg configId
        exact h.dropSubForKit (by omega)

theorem Accounts.foldl_cleanupSubForKit {configIds active : List Payload} (h : s.Accounts) :
    (configIds.foldl (Wsd.cleanupSubForKit settings active) s).Accounts := by
  induction configIds generalizing s with
  | nil => exact h
  | cons configId configIds ih => exact ih (h.cleanupSubForKit active configId)

theorem Accounts.cleanupDocBrokers (h : s.Accounts) (gone active : List Payload) :
    (s.cleanupDocBrokers settings gone active).Accounts := by
  rw [Wsd.cleanupDocBrokers]
  dsimp only
  split
  · exact ⟨h.forks, h.calls⟩
  · exact Accounts.foldl_cleanupSubForKit ⟨h.forks, h.calls⟩

theorem Accounts.launchForKit (h : s.Accounts) : (s.launchForKit settings).Accounts := by
  have hcount := h.forks.count_nonneg []
  exact ⟨h.forks.request (by omega), h.calls⟩

theorem Accounts.createForKit (h : s.Accounts)
    (hcounts : (s.launchForKit settings).countsLive [] (s.launchBalance settings) = true) :
    (s.createForKit settings).Accounts := by
  rw [Wsd.createForKit]
  split
  · exact h.launchForKit.rebalanceChildren hcounts
  · exact h.launchForKit

theorem Accounts.restoreForKit (h : s.Accounts) {shutdown : Bool}
    (hstep : s.inStep settings (.restoreForKit shutdown) = true) :
    (s.restoreForKit settings shutdown).Accounts := by
  simp only [inStep, Bool.and_eq_true, List.all_eq_true, dropsNothing, decide_eq_true_eq,
    Bool.or_eq_true] at hstep
  have hdropped : s.dropAllSubForKits.Accounts := h.foldl_dropSubForKit hstep.1
  rw [Wsd.restoreForKit]
  split
  case isTrue => exact hdropped
  case isFalse hrunning => exact hdropped.createForKit (hstep.2.resolve_left hrunning)

theorem Accounts.waits (h : s.Accounts) (waiting : List Payload) :
    Accounts { s with waiting := waiting } :=
  ⟨h.forks, h.calls⟩

theorem Accounts.getNewChild (h : s.Accounts)
    (hstep : s.inStep settings (.getNewChild configId) = true) :
    (s.getNewChild settings configId).Accounts := by
  simp only [inStep, Bool.or_eq_true, Bool.not_eq_true'] at hstep
  rw [Wsd.getNewChild]
  split
  case isTrue hreachable =>
    have hcounts := hstep.resolve_left (by simp [hreachable])
    exact (h.rebalanceChildren hcounts).waits _
  case isFalse => exact h.waits _

theorem Accounts.endWait (h : s.Accounts)
    (hdrops : s.givesUp configId = true → configId ≠ [] → s.subForKitProcs.has configId = true →
      s.forks.count configId = 0) : (s.endWait configId).Accounts := by
  have hpopped : ∀ newChildren, Accounts { s with newChildren := newChildren } := fun _ =>
    ⟨h.forks, h.calls⟩
  rw [Wsd.endWait]
  split
  case isTrue hdrop =>
    exact (hpopped _).dropSubForKit (hdrops hdrop.1 hdrop.2.1 hdrop.2.2)
  case isFalse => exact hpopped _

theorem Accounts.newForKit (h : s.Accounts) {pid : Nat}
    (hstep : s.inStep settings (.newForKit configId pid) = true) :
    (s.newForKit settings configId pid).Accounts := by
  simp only [inStep, Bool.or_eq_true, decide_eq_true_eq] at hstep
  rw [Wsd.newForKit]
  split
  case isTrue => exact h
  case isFalse hconfig =>
    have hadded : (s.addSubForKit configId pid).Accounts := ⟨h.forks, h.calls⟩
    exact hadded.rebalanceChildren (hstep.resolve_left hconfig)

theorem Accounts.onDisconnect (h : s.Accounts) {i : Option Nat}
    (hstep : s.inStep settings (.onDisconnect i) = true) : (s.onDisconnect settings i).Accounts := by
  have hgone : (s.disconnected i).1.Accounts := by
    cases i with
    | none => exact h
    | some i => exact ⟨h.forks, h.calls⟩
  exact hgone.rebalanceChildren hstep

theorem Accounts.next {e : Event} (h : s.Accounts) (hstep : s.inStep settings e = true)
    (hs : step settings s e = some s') : s'.Accounts := by
  cases e with
  | passes time =>
      cases hs
      exact ⟨h.forks, h.calls⟩
  | dies i =>
      cases hs
      exact ⟨h.forks, h.calls⟩
  | prespawnChildren =>
      cases hs
      exact h.rebalanceChildren hstep
  | newChild pid configId =>
      cases hs
      exact ⟨h.forks.arrive, h.calls⟩
  | onDisconnect i =>
      cases hs
      exact h.onDisconnect hstep
  | newForKit configId pid =>
      cases hs
      exact h.newForKit hstep
  | getNewChild configId =>
      cases hs
      exact h.getNewChild hstep
  | endWait i =>
      rcases Option.map_eq_some_iff.mp hs with ⟨configId, hconfig, rfl⟩
      simp only [inStep, hconfig, Option.all_some, Bool.or_eq_true, Bool.not_eq_true',
        decide_eq_true_eq, dropsNothing] at hstep
      refine (h.waits (s.waiting.eraseIdx i)).endWait fun hgives hne hhas => ?_
      rcases hstep with ((hkept | hempty) | hnone) | hzero
      · exact absurd hgives (by rw [givesUp, popChild] at hkept ⊢; simp [hkept])
      · exact absurd hempty hne
      · exact absurd hhas (by simp [hnone])
      · exact hzero
  | createForKit =>
      cases hs
      exact h.createForKit hstep
  | restoreForKit shutdown =>
      cases hs
      exact h.restoreForKit hstep
  | cleanupDocBrokers gone active =>
      cases hs
      exact h.cleanupDocBrokers gone active

theorem accounts_new (settings : Settings) : (new settings).Accounts := by
  refine ⟨⟨rfl, ?_⟩, ?_⟩
  · intro n hmem
    cases hmem
  · intro call hmem
    cases hmem

/-- In every run in which no dead spare child is counted and no subforkit is dropped that was asked
for children, the counters go together and what is asked for is what is missing. -/
theorem accounts_of_run (settings : Settings) (es : List Event) (s : Wsd)
    (hrun : run (stepIf (step settings) fun s e => s.inStep settings e) (new settings) es =
      some s) : s.Accounts := by
  refine run_invariant _ ?_ hrun (accounts_new settings)
  intro s e s' hs h
  rcases (stepIf_eq_some _).mp hs with ⟨hstep, hnext⟩
  exact h.next hstep hnext

/-- One child is kept spare. -/
def oneSpare : Settings := ⟨1, 5000, true, 3600000000000⟩

theorem accounts_firstChild : ∃ s, run (stepIf (step oneSpare) fun s e => s.inStep oneSpare e)
    (new oneSpare) [.createForKit, .newChild 9 [], .prespawnChildren] = some s ∧ s.Accounts := by
  rcases Option.isSome_iff_exists.mp (by decide : (run (stepIf (step oneSpare) fun s e =>
    s.inStep oneSpare e) (new oneSpare)
      [.createForKit, .newChild 9 [], .prespawnChildren]).isSome = true) with ⟨s, hs⟩
  exact ⟨s, hs, accounts_of_run oneSpare _ s hs⟩

/-- A subforkit connects and is asked for a child, which does not come in time. -/
def droppedSubForKit : List Event := [.newForKit ['c'] 7, .getNewChild ['c'], .endWait 0]

/-- The total keeps the child that the dropped subforkit was asked for. -/
theorem not_accounts_droppedSubForKit :
    ∃ s, run (step oneSpare) (new oneSpare) droppedSubForKit = some s ∧ ¬ s.Accounts := by
  have hdrift : (run (step oneSpare) (new oneSpare) droppedSubForKit).any fun s =>
      s.forks.total ≠ s.forks.outstanding.values.sum := by decide
  rcases run_reaches (step oneSpare) (new oneSpare) droppedSubForKit hdrift with ⟨s, hs, hne⟩
  exact ⟨s, hs, fun h => hne h.forks.total⟩

end Wsd

end CoolOnline.Spawning
