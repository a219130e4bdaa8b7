import CoolOnline.Broker.Save

/-! # Sessions of a broker

Adding, closing and removing sessions. Unlocking the document in storage is left out.
-/

namespace CoolOnline.Broker

namespace DocumentBroker

variable (s : DocumentBroker)

def isWaitingToLoad (session : Session) : Bool :=
  !session.isLive && !session.inWaitDisconnected && !session.closeFrame

/-- `failLoadingSessions(remove=true)`. -/
def removeLoadingSessions : DocumentBroker :=
  { s with sessions := s.sessions.filter fun session => !isWaitingToLoad session }

def finalRemoveSession (id : Nat) : DocumentBroker :=
  { s with sessions := s.sessions.filter fun session => session.id != id }

/-- The session is the only one left that can edit the document. -/
def isLastEditable (session : Session) : Bool :=
  session.isEditable && !haveAnotherEditableSession s.sessions session.id

/-- The document may be modified, or the last save has failed. -/
def mayBeUnsaved : Bool := s.isPossiblyModified || !s.saveManager.lastSaveSuccessful

/-- There is work that the storage does not have, or may not have. -/
def isUnstored : Bool :=
  (s.mayBeUnsaved || s.saveManager.isSaving) || (s.isAsyncUploading || s.isStorageOutdated)

def leaving (session : Session) : Leaving where
  lastEditable := s.isLastEditable session
  unsaved := s.mayBeUnsaved || s.saveManager.isSaving
  notUploaded := s.isAsyncUploading || s.isStorageOutdated
  canSave := s.canSaveToDisk == .yes
  canUpload := !session.expired

def disconnection (session : Session) (cause : DisconnectCause) : Disconnection :=
  ⟨session.id, cause, s.leaving session⟩

def removal (session : Session) : Removal := ⟨session.id, s.leaving session, s.willSave⟩

/-- `ClientSession::disconnectFromKit`, with whether the session can be removed at once. -/
def disconnectFromKit (session : Session) : DocumentBroker × Bool :=
  match session.state with
  | .live | .loading =>
      ({ s with
          sessions := updateSession s.sessions session.id fun x =>
            { x with state := .waitDisconnect } }, false)
  | _ => (s, true)

/-- `disconnectSessionInternal`. -/
def disconnectSessionInternal (session : Session) (cause : DisconnectCause) : DocumentBroker :=
  let s := s.storing fun t => t.observe (.disconnected (s.disconnection session cause))
  let s := if s.docState.unloadRequested then s.markToDestroy else s
  if session.inWaitDisconnected then s.finalRemoveSession session.id
  else
    let disconnected := s.disconnectFromKit session
    let s := disconnected.1
    let s :=
      if s.sessions.length = countLoadingSessions s.sessions + 1 then s.removeLoadingSessions else s
    let s :=
      if !s.isLoaded && s.sessions.length ≤ 1 then s.stop "Disconnected before loading" else s
    if disconnected.2 then s.finalRemoveSession session.id else s

/-- The loops over `_sessions` that disconnect the closed ones. -/
def disconnectClosedSessions (cause : DisconnectCause) : DocumentBroker :=
  s.sessions.foldl
    (fun s session =>
      if session.closeFrame && !session.inWaitDisconnected then
        s.disconnectSessionInternal session cause
      else s)
    s

/-- `removeSession`, for a client that has gone. -/
def removeSession (session : Session) : DocumentBroker :=
  let activeSessionCount := countActiveSessions s.sessions
  let s := s.storing fun t => t.observe (.sessionLeft (s.removal session))
  let s :=
    if !s.isLastEditable session then s.disconnectSessionInternal session .removed
    else if s.saveManager.isSaving then s
    else
      let saved := s.autoSave (s.config.alwaysSaveOnExit || s.isPossiblyModified)
      if saved.2 then saved.1 else saved.1.disconnectSessionInternal session .removed
  if activeSessionCount ≤ 1 then
    if s.saveManager.isSaving || s.isAsyncUploading then
      { s with docState := { s.docState with unloadRequested := true } }
    else if s.sessions.isEmpty then s.markToDestroy
    else s
  else s

end DocumentBroker

/-- The storage takes the modified time that a new session reports. -/
def Storing.sessionJoins (s : Storing) (time : String) (size : Nat) : Storing :=
  { s with
    storage := { s.storage with modifiedTime := time }
    hist := .sessionJoined time size :: s.hist }

namespace DocumentBroker

variable (s : DocumentBroker)

/-- `createNewClientSession` and `addSession`: a client joins, with the file information its
`CheckFileInfo` reported. -/
def addSession (session : Session) (time : String) (size : Nat) : DocumentBroker :=
  if s.isMarkedToDestroy || s.docState.closeRequested then s
  else
    let s := { s with docState := { s.docState with unloadRequested := false } }
    let s := s.storing fun t => t.sessionJoins time size
    let changed :=
      s.storageManager.lastModifiedServerTimeString ≠ "" ∧ time ≠ "" ∧
        s.storageManager.lastModifiedServerTimeString ≠ time
    let s := if changed ∧ s.uploadRequest.isNone then s.handleDocumentConflict else s
    { s with sessions := s.sessions ++ [{ session with state := .loading }] }

/-- A client whose `CheckFileInfo` fails is not added. -/
def addSessionFailed : DocumentBroker :=
  if s.isMarkedToDestroy || s.docState.closeRequested then s
  else
    let s := { s with docState := { s.docState with unloadRequested := false } }
    if s.sessions.isEmpty then s.markToDestroy else s

/-- `closeDocument`. -/
def closeDocument (reason : String) : DocumentBroker :=
  let s :=
    { s with docState := { s.docState with closeRequested := true }, closeReason := reason }
  if s.documentChangedInStorage then s.stop reason else s

/-- `disconnectedFromKit`. -/
def disconnectedFromKit (unexpected : Bool) : DocumentBroker :=
  let s :=
    { s with
      docState :=
        { s.docState with kitDisconnected := if unexpected then .unexpected else .normal } }
  if s.closeReason = "" then s.closeDocument "docdisconnected" else s

end DocumentBroker

end CoolOnline.Broker
