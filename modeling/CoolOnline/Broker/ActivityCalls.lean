import CoolOnline.Broker.Machine

/-! # Calls of `startActivity` and `endActivity`

The calls that the handlers of a broker make, each with the activity it finds, and the uploads
they put in flight. The calls of a handler are read off the handler itself; that they are all of
them is what `Follows` says: they lead from the activity before to the activity after.
-/

namespace CoolOnline.Broker

/-- What an activity ends with: the answer to a save or giving it up, the outcome of an upload, a
`CheckFileInfo` or that there is no session for one, the renaming, the switching. -/
inductive Operation
  | save
  | upload
  | fileInfo
  | rename
  | switching
deriving DecidableEq, Repr

/-- The operation belongs to the activity. -/
def Operation.serves : Operation → Activity → Bool
  | .save, activity => activity == .save || activity == .saveAs
  | .upload, activity =>
      activity == .upload || activity == .rename || activity == .switchingToOffline
  | .fileInfo, activity => activity == .syncFileTimestamp
  | .rename, activity => activity == .rename
  | .switching, activity => activity == .switchingToOffline

/-- A call, with the activity it finds. -/
inductive ActivityCall
  | start (activity found : Activity)
  | ended (operation : Operation) (found : Activity)
deriving DecidableEq, Repr

namespace ActivityCall

def found : ActivityCall → Activity
  | start _ found => found
  | ended _ found => found

/-- The activity after a call; `startActivity` refuses while another one is executing. -/
def next : ActivityCall → Activity → Activity
  | start activity _, current => if current = .none then activity else current
  | ended _ _, _ => .none

/-- An activity is started when there is none, and ended by an operation that belongs to it; the
continuation of `CheckFileInfo` does find the activity it belongs to. -/
def inTurn : ActivityCall → Bool
  | start activity found => activity != .none && found == .none
  | ended .fileInfo found => found == .syncFileTimestamp
  | ended operation found => found == .none || operation.serves found

end ActivityCall

/-- The calls lead from one activity to the other, and each finds the one it leads from. -/
def Follows : Activity → List ActivityCall → Activity → Prop
  | activity, [], activity' => activity = activity'
  | activity, call :: calls, activity' =>
      call.found = activity ∧ Follows (call.next activity) calls activity'

theorem Follows.append {activity activity' activity'' : Activity} {calls calls' : List ActivityCall}
    (h : Follows activity calls activity') (h' : Follows activity' calls' activity'') :
    Follows activity (calls ++ calls') activity'' := by
  induction calls generalizing activity with
  | nil =>
      cases h
      exact h'
  | cons call calls ih => exact ⟨h.1, ih h.2⟩

namespace DocumentBroker

variable (s : DocumentBroker)

def activity : Activity := s.docState.activity

def startCall (activity : Activity) : List ActivityCall := [.start activity s.activity]

def endCall (operation : Operation) : List ActivityCall := [.ended operation s.activity]

/-! ## Saving -/

def sendUnoSaveCalls (session : Nat) : List ActivityCall :=
  if s.canForwardToChild session ∧ s.activity = .none then s.startCall .save else []

def manualSaveCalls (session : Nat) : List ActivityCall :=
  if s.activity ≠ .save then s.sendUnoSaveCalls session else []

def autoSaveCalls (force : Bool) : List ActivityCall :=
  if s.activity = .save then []
  else
    let s := s.storing Storing.autoSaveChecked
    if s.canSaveToDisk ≠ .yes then []
    else if !s.isModified && !force then []
    else
      match s.savingSession with
      | none => []
      | some session =>
          if force || (s.isModified && s.timedSaveDue) then s.sendUnoSaveCalls session.id else []

/-! ## Uploading -/

/-- An upload that is made now is put in flight. -/
def uploadRuns (saveAs : Option SaveAsTarget) : Bool :=
  let path := (saveAs.map SaveAsTarget.path).getD ""
  let filename := (saveAs.map SaveAsTarget.filename).getD ""
  let file := if path ≠ "" ∧ filename ≠ "" then saveAs.bind SaveAsTarget.file else s.files.uploading
  s.uploadStart file (s.uploadStarts.headD .running) = .running

/-- `uploadToStorage` is not throttled. -/
def uploadDue (force : Bool) : Bool :=
  force || s.storageManager.lastUploadSuccessful ||
    s.storageManager.canUploadNow s.now s.isUnloading

def endUploadActivityCalls : List ActivityCall :=
  match s.activity with
  | .rename => s.endCall .upload
  | .switchingToOffline => s.endCall .upload
  | _ => []

def onUploadErrorCalls : List ActivityCall :=
  if s.uploadRequest.isNone then [] else s.endUploadActivityCalls

def uploadToStorageInternalCalls (session : Session) (saveAs : Option SaveAsTarget) :
    List ActivityCall :=
  if !session.isEditable || s.uploadRuns saveAs then [] else s.endUploadActivityCalls

def uploadToStorageCalls (session : Session) (force : Bool) : List ActivityCall :=
  if s.uploadDue force then s.uploadToStorageInternalCalls session none else []

/-- `uploadToStorage` puts an upload in flight. -/
def uploadToStorageRuns (session : Session) (force : Bool) : Bool :=
  s.uploadDue force && (session.isEditable && s.uploadRuns none)

def uploadRenamedCalls : List ActivityCall :=
  match s.renameSessionId.bind (findSession s.sessions) with
  | none => s.endCall .rename
  | some session => s.uploadToStorageInternalCalls session none

def afterStoredCalls : List ActivityCall :=
  match s.activity with
  | .rename => s.uploadRenamedCalls
  | .switchingToOffline => s.endCall .switching
  | _ => []

def handleUploadToStorageSuccessfulCalls (request : UploadRequest) : List ActivityCall :=
  if request.isPlain then (s.storing fun t => t.recordStored request).afterStoredCalls
  else if request.isRename then s.endCall .rename
  else []

def handleUploadToStorageFailedCalls (result : UploadResult) : List ActivityCall :=
  let calls := if s.docState.activity = .rename then s.endCall .upload else []
  let s := if s.docState.activity = .rename then s.endRenameFileCommand else s
  calls ++ if result = .failed then s.endCall .upload ++ s.endActivity.startCall .syncFileTimestamp
    else []

def onUploadCompleteCalls (result : UploadResult) : List ActivityCall :=
  match s.uploadRequest with
  | none => []
  | some request =>
      let s := s.storing fun t => t.recordUploadResult (result == .ok)
      if result = .ok then s.handleUploadToStorageSuccessfulCalls request
      else s.handleUploadToStorageFailedCalls result

def uploadFinishesCalls (upload : UploadSession) (reply : UploadReply) (again : Bool) :
    List ActivityCall :=
  let s := s.storing fun t => t.finishUpload upload reply
  let calls := s.onUploadCompleteCalls reply.result
  let s := s.onUploadComplete reply.result
  calls ++ if again && reply.httpResponseCode == 0 then
    (s.storing Storing.retireUpload).onUploadErrorCalls else []

def uploadConnectFailsCalls (again : Bool) : List ActivityCall :=
  let s := s.storing Storing.retireUpload
  let calls := s.onUploadErrorCalls
  let s := s.onUploadError
  calls ++ if again then (s.storing Storing.retireUpload).onUploadCompleteCalls .failed else []

/-! ## Save responses -/

/-- `checkAndUploadToStorage` leaves the uploading to the poll, which saves again before. -/
def savesAgain (justSaved : Bool) : Bool :=
  (if justSaved then s.haveModifyActivityAfterSaveRequest else s.needToSaveToDisk != .no) &&
    s.isUnloading

/-- `checkAndUploadToStorage` puts an upload in flight, when no renaming and no switching waits
for it. -/
def checkAndUploadRuns (session : Session) (justSaved : Bool) : Bool :=
  !s.savesAgain justSaved && s.needToUploadToStorage != .no && s.uploadToStorageRuns session false

def checkAndUploadToStorageCalls (session : Session) (justSaved : Bool) : List ActivityCall :=
  let needToUpload := s.needToUploadToStorage
  if s.activity = .rename ∧ needToUpload = .no then s.uploadRenamedCalls
  else if s.activity = .switchingToOffline ∧ needToUpload = .no then s.endCall .switching
  else
    let calls := if s.docState.activity = .save then s.endCall .save else []
    let s := if s.docState.activity = .save then s.endActivity else s
    calls ++ if s.savesAgain justSaved then []
      else if needToUpload ≠ .no then s.uploadToStorageCalls session false
      else []

/-- The broker once it has recorded the answer to a save. -/
def saveAnswered (id : Nat) (answer : SaveAnswer) (wasModified : Option Bool)
    (file : Option File) : DocumentBroker :=
  s.quarantineUpload.storing fun t => t.answerSave id answer wasModified file

def handleSaveResponseCalls (session : Session) (id : Nat) (answer : SaveAnswer)
    (wasModified : Option Bool) (file : Option File) : List ActivityCall :=
  (s.saveAnswered id answer wasModified file).checkAndUploadToStorageCalls session answer.isOk

/-- The save with this number, if its answer is there. -/
def answerOf (id : Nat) : Option (SaveAnswer × Option Bool × Option File) :=
  (s.pendingSaves.find? fun save => save.id = id).bind PendingSave.finished

/-! ## Renaming and switching -/

def startRenameFileCommandCalls : List ActivityCall :=
  match s.renameSessionId with
  | none => []
  | some id =>
      if s.renameFilename = "" ∨ s.activity ≠ .none then []
      else
        let calls := s.startCall .rename
        let s := s.startActivity .rename
        calls ++ match findSession s.sessions id with
          | none => s.endCall .rename
          | some session => s.sendUnoSaveCalls session.id

def handleRenameFileCommandCalls (session : Nat) (filename : String) : List ActivityCall :=
  if filename = "" then []
  else if s.activity = .rename ∧ s.renameFilename ≠ filename then []
  else
    let s := { s with renameFilename := filename, renameSessionId := some session }
    if s.activity = .none then s.startRenameFileCommandCalls else []

def startSwitchingToOfflineCalls (session : Session) : List ActivityCall :=
  if 1 < s.sessions.length ∨ s.activity ≠ .none then []
  else
    s.startCall .switchingToOffline ++
      (s.startActivity .switchingToOffline).sendUnoSaveCalls session.id

/-- `startSwitchingToOnline` returns while another activity is executing. -/
def startSwitchingToOnlineCalls : List ActivityCall :=
  if s.activity ≠ .none then [] else s.startCall .switchingToOnline

/-! ## Sessions -/

def removeSessionCalls (session : Session) : List ActivityCall :=
  let s := s.storing fun t => t.observe (.sessionLeft (s.removal session))
  if !s.isLastEditable session then []
  else if s.saveManager.isSaving then []
  else s.autoSaveCalls (s.config.alwaysSaveOnExit || s.isPossiblyModified)

/-! ## Polling -/

def uploadOrStopCalls : List ActivityCall :=
  match getWriteableSession s.sessions with
  | none => []
  | some session => if session.expired then [] else s.checkAndUploadToStorageCalls session false

def autoSaveAndStopCalls : List ActivityCall :=
  if s.saveManager.isSaving || s.isAsyncUploading then []
  else if s.canStopAtOnce then []
  else if s.waitsForModifiedStatus then []
  else if s.canStopSaved then []
  else if s.saveManager.canSaveNow s.now s.isUnloading then
    let force := s.isPossiblyModified || !s.saveManager.lastSaveSuccessful
    let saved := s.autoSave force
    s.autoSaveCalls force ++ if saved.2 then [] else saved.1.uploadOrStopCalls
  else []

def retryUploadCalls : List ActivityCall :=
  match getWriteableSession s.sessions with
  | none => []
  | some session => if session.expired then [] else s.checkAndUploadToStorageCalls session false

def pollIdleCalls : List ActivityCall :=
  let s := { s with checkFileInfo := none }
  let s := s.storing Storing.resetUploadRequest
  if s.renameFilename ≠ "" ∧ s.renameSessionId.isSome then s.startRenameFileCommandCalls
  else if s.isLoaded && s.config.idleDocTimeout * 1000 ≤ s.getIdleTime then s.autoSaveAndStopCalls
  else if s.sessions.isEmpty && (s.isLoaded || s.docState.markedToDestroy) then
    if !s.isLoaded then (s.stop "dead").autoSaveAndStopCalls
    else if s.saveManager.isSaving || s.isAsyncUploading then []
    else s.autoSaveAndStopCalls
  else if s.config.indirectionServerEnabled && s.shutdownRequestFlag && !s.migrateMsgReceived then
    []
  else if s.docState.unloadRequested || s.shutdownRequestFlag || s.docState.closeRequested then
    if s.saveLimitReached || s.uploadLimitReached then [] else s.autoSaveAndStopCalls
  else if s.saveManager.needAutoSaveCheck s.now then s.autoSaveCalls false
  else if !s.isAsyncUploading && !s.storageManager.lastUploadSuccessful &&
      s.needToUploadToStorage != .no then
    s.retryUploadCalls
  else []

def syncFileTimestampCalls : List ActivityCall :=
  if s.checkFileInfo.isSome then []
  else
    match getFirstAuthorizedSession s.sessions with
    | none => s.endCall .fileInfo
    | some _ => []

def pollOnceCalls : List ActivityCall :=
  if s.docState.interactive then []
  else
    match s.activity with
    | .none => s.pollIdleCalls
    | .save | .saveAs =>
        if s.docState.isKitDisconnected || s.saveManager.hasSavingTimedOut s.now then s.endCall .save
        else []
    | .syncFileTimestamp => s.syncFileTimestampCalls
    | _ => []

/-- The calls that the handler of an event makes. -/
def callsOf : Event → List ActivityCall
  | .saveResponse id session =>
      match findSession s.sessions session, s.answerOf id with
      | some x, some (answer, wasModified, file) =>
          s.handleSaveResponseCalls x id answer wasModified file
      | _, _ => []
  | .manualSave session _ => s.manualSaveCalls session
  | .saveToStorage session force =>
      match findSession s.sessions session with
      | some x => s.uploadToStorageCalls x force
      | none => []
  | .saveAs session target _ =>
      match findSession s.sessions session with
      | some x => s.uploadToStorageInternalCalls x (some target)
      | none => []
  | .renameFile session filename => s.handleRenameFileCommandCalls session filename
  | .switchToOffline session =>
      match findSession s.sessions session with
      | some x => s.startSwitchingToOfflineCalls x
      | none => []
  | .switchToOnline => s.startSwitchingToOnlineCalls
  | .uploadReply reply again =>
      match s.storage.uploadHttpSession with
      | some upload => s.uploadFinishesCalls upload reply again
      | none => []
  | .uploadConnectFails again => s.uploadConnectFailsCalls again
  | .fileInfo _ _ => s.endCall .fileInfo
  | .fileInfoFails _ => s.endCall .fileInfo
  | .poll _ => s.pollOnceCalls
  | .removeSession session =>
      match findSession s.sessions session with
      | some x => s.removeSessionCalls x
      | none => []
  | _ => []

end DocumentBroker

end CoolOnline.Broker
