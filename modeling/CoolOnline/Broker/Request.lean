import Mathlib.Data.Nat.Basic

/-! # Save and upload requests

`RequestManager`, `SaveManager` and `StorageManager` of `wsd/DocumentBroker.hpp`. Points in
time are nanoseconds of the steady clock; durations that the source keeps as
`std::chrono::milliseconds` are milliseconds. A modified time of 0 is the default
`time_point()`.
-/

namespace CoolOnline.Broker

/-- `duration_cast<milliseconds>`. -/
def toMillis (duration : Nat) : Nat := duration / 1000000

/-- `duration_cast<seconds>`. -/
def toSeconds (duration : Nat) : Nat := duration / 1000000000

structure RequestManager where
  minTimeBetweenRequests : Nat
  lastRequestTime : Nat
  lastResponseTime : Nat
  lastRequestDuration : Nat
  lastRequestFailureCount : Nat
deriving DecidableEq, Repr

namespace RequestManager

variable (m : RequestManager) (now : Nat)

def markLastRequestTime : RequestManager := { m with lastRequestTime := now }

def timeSinceLastRequest : Nat := toMillis (now - m.lastRequestTime)

def timeSinceLastResponse : Nat := toMillis (now - m.lastResponseTime)

/-- There is an active request in progress. -/
def isActive : Bool := m.lastResponseTime < m.lastRequestTime

def hasLastRequestTimedOut (timeoutMs : Nat) : Bool :=
  m.isActive && timeoutMs ≤ m.timeSinceLastRequest now

def markLastResponseTime : RequestManager :=
  { m with
    lastResponseTime := now
    lastRequestDuration := toMillis (now - m.lastRequestTime) }

def timeToNextRequest (unloading : Bool) : Nat :=
  let minTime := max m.minTimeBetweenRequests m.lastRequestDuration
  let minTime := if unloading then minTime / 10 else minTime
  let timeSinceLastCommunication := min (m.timeSinceLastRequest now) (m.timeSinceLastResponse now)
  if minTime ≤ timeSinceLastCommunication then 0 else minTime - timeSinceLastCommunication

def canRequestNow (unloading : Bool) : Bool :=
  !m.isActive && m.timeToNextRequest now unloading == 0

def setLastRequestResult (success : Bool) : RequestManager :=
  let m := m.markLastResponseTime now
  { m with lastRequestFailureCount := if success then 0 else m.lastRequestFailureCount + 1 }

def lastRequestSuccessful : Bool := m.lastRequestFailureCount == 0

@[simp] theorem markLastRequestTime_failureCount :
    (m.markLastRequestTime now).lastRequestFailureCount = m.lastRequestFailureCount := rfl

@[simp] theorem markLastRequestTime_responseTime :
    (m.markLastRequestTime now).lastResponseTime = m.lastResponseTime := rfl

@[simp] theorem setLastRequestResult_requestTime (success : Bool) :
    (m.setLastRequestResult now success).lastRequestTime = m.lastRequestTime := rfl

@[simp] theorem setLastRequestResult_responseTime (success : Bool) :
    (m.setLastRequestResult now success).lastResponseTime = now := rfl

/-- A response makes the request inactive, whatever the result. -/
theorem setLastRequestResult_isActive (success : Bool) (h : m.lastRequestTime ≤ now) :
    (m.setLastRequestResult now success).isActive = false := by
  have hlt : ¬ now < m.lastRequestTime := by omega
  exact decide_eq_false hlt

theorem setLastRequestResult_successful (success : Bool) :
    (m.setLastRequestResult now success).lastRequestSuccessful = success := by
  cases success <;> simp [setLastRequestResult, lastRequestSuccessful]

end RequestManager

structure SaveManager where
  request : RequestManager
  lastModifiedLocalTime : Nat
  idleSaveInterval : Nat
  autoSaveInterval : Nat
  savingTimeout : Nat
  lastAutosaveCheckTime : Nat
  version : Nat
deriving DecidableEq, Repr

namespace SaveManager

variable (m : SaveManager) (now : Nat)

/-- `_checkInterval`: 0 when disabled, otherwise the minimum of idle- and auto-save. -/
def checkInterval : Nat :=
  if 0 < m.idleSaveInterval then
    if 0 < m.autoSaveInterval then min m.idleSaveInterval m.autoSaveInterval
    else m.idleSaveInterval
  else m.autoSaveInterval

def isIdleSaveEnabled : Bool := 0 < m.idleSaveInterval

def isAutoSaveEnabled : Bool := 0 < m.autoSaveInterval

def needAutoSaveCheck : Bool :=
  0 < m.checkInterval && m.checkInterval ≤ toSeconds (now - m.lastAutosaveCheckTime) * 1000

def autoSaveChecked : SaveManager := { m with lastAutosaveCheckTime := now }

def postponeAutosave (seconds : Nat) : SaveManager :=
  let nextAutosaveCheck := m.lastAutosaveCheckTime + m.autoSaveInterval * 1000000
  let postponeTime := now + seconds * 1000000000
  if nextAutosaveCheck < postponeTime then
    { m with lastAutosaveCheckTime := m.lastAutosaveCheckTime + (postponeTime - nextAutosaveCheck) }
  else m

def markLastSaveRequestTime : SaveManager := { m with request := m.request.markLastRequestTime now }

def lastSaveSuccessful : Bool := m.request.lastRequestSuccessful

def saveFailureCount : Nat := m.request.lastRequestFailureCount

def setLastSaveResult (success newVersion : Bool) : SaveManager :=
  { m with
    version := if newVersion then m.version + 1 else m.version
    request := m.request.setLastRequestResult now success }

def lastSaveRequestTime : Nat := m.request.lastRequestTime

def isSaving : Bool := m.request.isActive

def hasSavingTimedOut : Bool := m.request.hasLastRequestTimedOut now m.savingTimeout

def canSaveNow (unloading : Bool) : Bool := m.request.canRequestNow now unloading

end SaveManager

/-- `UploadRequest`, with the session it was made for. -/
structure UploadRequest where
  newFileModifiedLocalTime : Nat
  session : Nat
  isSaveAs : Bool
  isExport : Bool
  isRename : Bool
  completed : Bool
deriving DecidableEq, Repr

structure StorageManager where
  request : RequestManager
  lastUploadedFileModifiedLocalTime : Nat
  lastModifiedServerTimeString : String
  sizeOnServer : Nat
  sizeAsUploaded : Nat
deriving DecidableEq, Repr

namespace StorageManager

variable (m : StorageManager) (now : Nat)

def lastUploadSuccessful : Bool := m.request.lastRequestSuccessful

def setLastUploadResult (success : Bool) : StorageManager :=
  { m with request := m.request.setLastRequestResult now success }

def markLastUploadRequestTime : StorageManager :=
  { m with request := m.request.markLastRequestTime now }

def uploadFailureCount : Nat := m.request.lastRequestFailureCount

def canUploadNow (unloading : Bool) : Bool := m.request.canRequestNow now unloading

end StorageManager

end CoolOnline.Broker
