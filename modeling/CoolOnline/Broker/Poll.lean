import CoolOnline.Broker.Upload

/-! # The polling thread of a broker

Save responses, the decisions of `checkAndUploadToStorage` and `autoSaveAndStop`, one iteration
of the loop of `pollThread`, and what follows the loop.
-/

namespace CoolOnline.Broker

/-- The rename of `.upload` to `.uploading`, when there is one. -/
def Files.renameForUpload (files : Files) : Files :=
  match files.upload with
  | none => files
  | some file => { files with upload := none, uploading := some file }

/-- The file `pollThread` puts in quarantine. -/
def Files.toQuarantine (files : Files) : File :=
  match files.uploading, files.upload with
  | some file, _ => file
  | none, some file => file
  | none, none => files.root

namespace Storing

variable (s : Storing)

/-- What `handleSaveResponse` records of the answer to a save. -/
def answerSave (id : Nat) (answer : SaveAnswer) (wasModified : Option Bool)
    (file : Option File) : Storing :=
  let next :=
    match wasModified with
    | none => s.nextStorageAttrs
    | some modified => { s.nextStorageAttrs with isUserModified := modified }
  { s with
    currentStorageAttrs := s.currentStorageAttrs.merge next
    nextStorageAttrs := .empty
    saveManager := s.saveManager.setLastSaveResult s.now answer.isOk (answer == .success)
    files := s.files.renameForUpload
    pendingSaves := s.pendingSaves.filter fun save => save.id != id
    hist := .saveAnswered id answer wasModified file :: s.hist }

/-- A save that is not waited for any longer. -/
def giveUpSave : Storing :=
  { s with
    saveManager := s.saveManager.setLastSaveResult s.now false false
    hist := .saveTimedOut :: s.hist }

/-- The upload request is reset once it is complete. -/
def resetUploadRequest : Storing :=
  if s.uploadRequest.any UploadRequest.completed then { s with uploadRequest := none } else s

/-- The size the host reports is the one of the upload that failed, as far as the broker can
tell. -/
def isOwnVersion (size : Nat) : Bool :=
  s.storageManager.sizeAsUploaded == size || s.storageManager.sizeOnServer != 0

/-- What is made of a `CheckFileInfo` report after a failed upload. -/
def fileInfoReport (time : String) (size : Nat) : FileInfoReport where
  time := time
  size := size
  adopted := s.isOwnVersion size
  before := s.storage.modifiedTime
  after := if s.isOwnVersion size then time else s.storage.modifiedTime
  conflict := s.documentChangedInStorage || !s.isOwnVersion size

/-- What a `CheckFileInfo` report after a failed upload changes. -/
def fileInfoReported (time : String) (size : Nat) : Storing :=
  let report := s.fileInfoReport time size
  { s with
    storage := { s.storage with modifiedTime := report.after }
    storageManager :=
      { s.storageManager with
        lastModifiedServerTimeString :=
          if report.adopted then time else s.storageManager.lastModifiedServerTimeString }
    documentChangedInStorage := report.conflict
    hist := .fileInfoReported report :: s.hist }

/-- `setLastModifiedTimeUnSafe`. -/
def setLastModifiedTimeUnSafe : Storing :=
  { s with
    storage := { s.storage with modifiedTime := "" }
    hist := .fileInfoFailed :: s.hist }

end Storing

namespace DocumentBroker

variable (s : DocumentBroker)

/-- `checkAndUploadToStorage`. -/
def checkAndUploadToStorage (session : Session) (justSaved : Bool) : DocumentBroker :=
  let needToUpload := s.needToUploadToStorage
  if s.docState.activity = .rename ∧ needToUpload = .no then s.uploadRenamed
  else if s.docState.activity = .switchingToOffline ∧ needToUpload = .no then s.switchToOffline
  else
    let s := if s.docState.activity = .save then s.endActivity else s
    let modified :=
      if justSaved then s.haveModifyActivityAfterSaveRequest else s.needToSaveToDisk != .no
    -- Save again before uploading and unloading; done in the poll.
    if modified && s.isUnloading then s
    else if needToUpload ≠ .no then s.uploadToStorage session false
    else if !s.isAsyncUploading then
      s.disconnectClosedSessions (.nothingToUpload s.mayBeUnsaved)
    else s

/-- The old `.upload` file goes to the quarantine before it is renamed. -/
def quarantineUpload : DocumentBroker :=
  match s.files.upload with
  | none => s
  | some file =>
      if s.config.quarantineEnabled then s.storing fun t => t.observe (.quarantined file) else s

/-- `handleSaveResponse`. -/
def handleSaveResponse (session : Session) (id : Nat) (answer : SaveAnswer)
    (wasModified : Option Bool) (file : Option File) : DocumentBroker :=
  let s := s.quarantineUpload.storing fun t => t.answerSave id answer wasModified file
  s.checkAndUploadToStorage session answer.isOk

/-- The uploads have failed as often as `per_document.limit_store_failures` allows. -/
def uploadLimitReached : Bool :=
  0 < s.config.limStoreFailures &&
    s.config.limStoreFailures ≤ s.storageManager.uploadFailureCount

def saveLimitReached : Bool :=
  0 < s.config.limStoreFailures && s.config.limStoreFailures ≤ s.saveManager.saveFailureCount

/-- The last save succeeded and nothing has been modified since it was asked for. -/
def isSavedSinceActivity : Bool :=
  !s.haveModifyActivityAfterSaveRequest && s.saveManager.lastSaveSuccessful

/-- The first decisions of `autoSaveAndStop` to stop: nothing to save and nothing to upload,
only an upload for `always_save_on_exit`, or no way to save. -/
def canStopAtOnce : Bool :=
  if s.needToSaveToDisk = .no then
    s.needToUploadToStorage = .no ||
      !s.isStorageOutdated &&
        (!(s.config.alwaysSaveOnExit && !s.storageManager.lastUploadSuccessful) ||
          s.uploadLimitReached)
  else s.canSaveToDisk ≠ .yes

/-- Nothing to upload, and the last save succeeded although the document is flagged as
modified. -/
def canStopSaved : Bool :=
  s.needToUploadToStorage = .no && (s.isSavedSinceActivity || s.needToSaveToDisk = .no)

/-- The modified flag may be about to clear. -/
def waitsForModifiedStatus : Bool :=
  s.needToUploadToStorage = .no && s.isSavedSinceActivity && s.isModified &&
    s.saveManager.request.timeSinceLastResponse s.now < 2000

/-- `autoSaveAndStop` calls `stop`. -/
def autoStop (reason : String) : DocumentBroker :=
  let stop : AutoStop :=
    ⟨s.canSaveToDisk == .yes, haveAuthorizedWriter s.sessions, writerIsAuthorized s.sessions,
      s.uploadLimitReached⟩
  (s.storing fun t => t.observe (.autoStopped stop)).stop reason

/-- Nothing to save: upload if necessary, or stop when there is no session to upload with. -/
def uploadOrStop (reason : String) : DocumentBroker :=
  match getWriteableSession s.sessions with
  | none => s.autoStop reason
  | some session =>
      if session.expired then s.autoStop reason else s.checkAndUploadToStorage session false

/-- `autoSaveAndStop`. -/
def autoSaveAndStop (reason : String) : DocumentBroker :=
  if s.saveManager.isSaving || s.isAsyncUploading then s
  else if s.canStopAtOnce then s.autoStop reason
  else if s.waitsForModifiedStatus then s
  else if s.canStopSaved then s.autoStop reason
  else if s.saveManager.canSaveNow s.now s.isUnloading then
    let saved := s.autoSave (s.isPossiblyModified || !s.saveManager.lastSaveSuccessful)
    if saved.2 then saved.1 else saved.1.uploadOrStop reason
  else s

/-- `startRenameFileCommand`. -/
def startRenameFileCommand : DocumentBroker :=
  match s.renameSessionId with
  | none => s
  | some id =>
      if s.renameFilename = "" ∨ s.docState.activity ≠ .none then s
      else
        let s := s.startActivity .rename
        match findSession s.sessions id with
        | none => s.endRenameFileCommand
        | some session => (s.sendUnoSave session.id false "").1

/-- `handleRenameFileCommand`. -/
def handleRenameFileCommand (session : Nat) (filename : String) : DocumentBroker :=
  if filename = "" then s
  else if s.docState.activity = .rename ∧ s.renameFilename ≠ filename then s
  else
    let s := { s with renameFilename := filename, renameSessionId := some session }
    if s.docState.activity = .none then s.startRenameFileCommand else s

/-- `switchMode` to offline; refused with several views. -/
def startSwitchingToOffline (session : Session) : DocumentBroker :=
  if 1 < s.sessions.length ∨ s.docState.activity ≠ .none then s
  else ((s.startActivity .switchingToOffline).sendUnoSave session.id false "").1

/-- `cfiContinuation` when `CheckFileInfo` passed. -/
def fileInfoPassed (time : String) (size : Nat) : DocumentBroker :=
  let conflict := !s.isOwnVersion size
  let s := s.endActivity.storing fun t => t.fileInfoReported time size
  if conflict then s.handleDocumentConflict else s

/-- `cfiContinuation` when `CheckFileInfo` failed, timed out or was not authorized. -/
def fileInfoFailed (session : Nat) (unauthorized : Bool) : DocumentBroker :=
  let s := s.endActivity.storing Storing.setLastModifiedTimeUnSafe
  if unauthorized then s.invalidateAuthorization session else s

/-- Ask for the file information again, or give the timestamp up; `starts` is whether the
request could be made. -/
def syncFileTimestamp (starts : Bool) : DocumentBroker :=
  if s.checkFileInfo.isSome then s
  else
    match getFirstAuthorizedSession s.sessions with
    | none => (s.storing Storing.setLastModifiedTimeUnSafe).endActivity
    | some session => if starts then { s with checkFileInfo := some ⟨session.id, false⟩ } else s

/-- Wait for the migration message, or give up after the timeout (in seconds). -/
def awaitMigration (timeout : Nat) : DocumentBroker :=
  match s.migrationMsgStartTime with
  | none => { s with migrationMsgStartTime := some s.now }
  | some start =>
      if timeout * 1000000000 < s.now - start then { s with migrateMsgReceived := true } else s

def unloadReason : String :=
  if s.shutdownRequestFlag then "recycling"
  else if s.closeReason ≠ "" then s.closeReason
  else "unloading"

/-- Try a failed upload again. -/
def retryUpload : DocumentBroker :=
  match getWriteableSession s.sessions with
  | none => s
  | some session => if session.expired then s else s.checkAndUploadToStorage session false

/-- The iteration of `pollThread` with no activity executing. -/
def pollIdle : DocumentBroker :=
  let s := { s with checkFileInfo := none }
  let s := s.storing Storing.resetUploadRequest
  if s.renameFilename ≠ "" ∧ s.renameSessionId.isSome then s.startRenameFileCommand
  else if s.isLoaded && s.config.idleDocTimeout * 1000 ≤ s.getIdleTime then
    s.autoSaveAndStop "idle"
  else if s.sessions.isEmpty && (s.isLoaded || s.docState.markedToDestroy) then
    if !s.isLoaded then (s.stop "dead").autoSaveAndStop "dead"
    else if s.saveManager.isSaving || s.isAsyncUploading then s
    else s.autoSaveAndStop "dead"
  else if s.config.indirectionServerEnabled && s.shutdownRequestFlag && !s.migrateMsgReceived then
    s.awaitMigration s.config.migrationTimeout
  else if s.docState.unloadRequested || s.shutdownRequestFlag || s.docState.closeRequested then
    if s.saveLimitReached || s.uploadLimitReached then s.stop "storefailed"
    else s.autoSaveAndStop s.unloadReason
  else if s.saveManager.needAutoSaveCheck s.now then (s.autoSave false).1
  else if !s.isAsyncUploading && !s.storageManager.lastUploadSuccessful &&
      s.needToUploadToStorage != .no then
    s.retryUpload
  else s

/-- One iteration of `pollThread`; `starts` is whether a `CheckFileInfo` can be started. -/
def pollOnce (starts : Bool) : DocumentBroker :=
  if s.docState.interactive then
    if s.isUnloading then s.stop "abortedinteractive" else s
  else
    match s.docState.activity with
    | .none => s.pollIdle
    | .save | .saveAs =>
        if s.docState.isKitDisconnected || s.saveManager.hasSavingTimedOut s.now then
          (s.storing Storing.giveUpSave).endActivity
        else s
    | .syncFileTimestamp => s.syncFileTimestamp starts
    | _ => s.storing fun t => t.postponeAutosave 30

/-- The tests of the data-loss check after the loop. -/
def mayHaveDataLoss : Bool :=
  s.haveModifyActivityAfterSaveRequest || !s.saveManager.lastSaveSuccessful ||
    !s.storageManager.lastUploadSuccessful || s.isStorageOutdated

/-- The owner is discarding a conflict. -/
def isDiscardingConflict : Bool := s.docState.closeRequested && s.documentChangedInStorage

/-- The loop of `pollThread` has ended. -/
def leaveLoop : DocumentBroker :=
  { s with dataLoss := s.mayHaveDataLoss && !s.isDiscardingConflict, phase := .flushing }

/-- The end of `pollThread`, after flushing. -/
def finish : DocumentBroker :=
  let s := { s with childConnected := false, phase := .finished }
  if (s.dataLoss || s.docState.kitDisconnected == .unexpected) && s.config.quarantineEnabled then
    s.storing fun t => t.observe (.quarantined s.files.toQuarantine)
  else s

end DocumentBroker

end CoolOnline.Broker
