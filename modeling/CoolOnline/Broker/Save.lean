import CoolOnline.Broker.State

/-! # Saving to disk

`sendUnoSave`, `manualSave` and `autoSave` of `wsd/DocumentBroker.cpp`. The arguments of the
save command that only the Kit reads (background, `DontTerminateEdit`) are left out.
-/

namespace CoolOnline.Broker

namespace Storing

variable (s : Storing)

/-- The attributes a save captures before it is sent, and the timestamp it invalidates. -/
def captureAttrs (userModified autosave : Bool) (extendedData : String) : Storing :=
  { s with
    saveManager := { s.saveManager with lastModifiedLocalTime := 0 }
    nextStorageAttrs :=
      { s.nextStorageAttrs with
        isUserModified := userModified, isAutosave := autosave, extendedData := extendedData } }

def autoSaveChecked : Storing := { s with saveManager := s.saveManager.autoSaveChecked s.now }

def postponeAutosave (seconds : Nat) : Storing :=
  { s with saveManager := s.saveManager.postponeAutosave s.now seconds }

/-- The save request goes out. -/
def requestSave : Storing :=
  { s with
    saveManager := s.saveManager.markLastSaveRequestTime s.now
    pendingSaves := s.pendingSaves ++ [⟨s.hist.length, none⟩]
    hist := .saveRequested s.hist.length s.nextStorageAttrs s.saveUnanswered :: s.hist }

end Storing

namespace DocumentBroker

variable (s : DocumentBroker)

/-- `forwardToChild` reaches the Kit for a session of this document. -/
def canForwardToChild (session : Nat) : Bool :=
  (findSession s.sessions session).isSome && s.childConnected

/-- `sendUnoSave`, with whether the save was sent. -/
def sendUnoSave (session : Nat) (isAutosave : Bool) (extendedData : String) :
    DocumentBroker × Bool :=
  let userModified := s.isModified || s.haveModifyActivityAfterSaveRequest
  let s := s.storing fun t => t.captureAttrs userModified isAutosave extendedData
  if s.canForwardToChild session then
    ((s.storing Storing.requestSave).startActivity .save, true)
  else (s.storing fun t => t.observe (.saveNotSent t.saveUnanswered), false)

/-- `manualSave`. -/
def manualSave (session : Nat) (extendedData : String) : DocumentBroker × Bool :=
  if s.docState.activity ≠ .save then s.sendUnoSave session false extendedData else (s, false)

/-- The session `autoSave` uses: the last editing view, if still valid. -/
def savingSession : Option Session :=
  match s.lastEditingSessionId.bind (findSession s.sessions) with
  | some session =>
      if session.isEditable && session.isViewLoaded then some session
      else getWriteableSession s.sessions
  | none => getWriteableSession s.sessions

/-- Either idle long enough, or auto-save time. -/
def timedSaveDue : Bool :=
  let inactivityTime := toMillis (s.now - s.lastActivityTime)
  let timeSinceLastSave :=
    min (s.saveManager.request.timeSinceLastRequest s.now)
      (s.storageManager.request.timeSinceLastResponse s.now)
  (s.saveManager.isIdleSaveEnabled && s.saveManager.idleSaveInterval ≤ inactivityTime &&
      s.saveManager.idleSaveInterval ≤ timeSinceLastSave) ||
    (s.saveManager.isAutoSaveEnabled && s.saveManager.autoSaveInterval ≤ timeSinceLastSave)

/-- `removeSession` finds a save under way, or asks for one. -/
def willSave : Bool :=
  s.saveManager.isSaving || s.docState.activity = .save ||
    s.canSaveToDisk = .yes && (s.config.alwaysSaveOnExit || s.isPossiblyModified)

/-- `autoSave`, with whether a save is under way. -/
def autoSave (force : Bool) : DocumentBroker × Bool :=
  if s.docState.activity = .save then (s, true)
  else
    let s := s.storing Storing.autoSaveChecked
    if s.canSaveToDisk ≠ .yes then (s, false)
    else if !s.isModified && !force then (s, false)
    else
      match s.savingSession with
      | none => (s, false)
      | some session =>
          if force then s.sendUnoSave session.id false ""
          else if s.isModified && s.timedSaveDue then s.sendUnoSave session.id true ""
          else (s, false)

end DocumentBroker

end CoolOnline.Broker
