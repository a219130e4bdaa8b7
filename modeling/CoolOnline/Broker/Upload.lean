import CoolOnline.Broker.Sessions

/-! # Uploading to storage

`uploadToStorageInternal`, its callback and the handling of results of
`wsd/DocumentBroker.cpp`, over `uploadLocalFileToStorageAsync` and
`handleUploadToStorageResponse` of `wsd/wopi/WopiStorage.cpp`.
-/

namespace CoolOnline.Broker

/-- What the broker reads of the JSON body of an upload response. -/
structure UploadJson where
  lastModifiedTime : String
  coolStatusCode : Nat
  loolStatusCode : Nat
deriving DecidableEq, Repr

/-- The HTTP response to an upload; code 0 when there was none. -/
structure UploadReply where
  httpResponseCode : Nat
  json : Option UploadJson
deriving DecidableEq, Repr

/-- `COOLStatusCode::DOC_CHANGED`. -/
def docChangedStatus : Nat := 1010

/-- The result `WopiStorage::handleUploadToStorageResponse` makes of a response. -/
def UploadReply.result (reply : UploadReply) : UploadResult :=
  if reply.httpResponseCode = 200 then .ok
  else if reply.httpResponseCode = 413 then .tooLarge
  else if reply.httpResponseCode = 401 ∨ reply.httpResponseCode = 403 ∨
      reply.httpResponseCode = 404 then .unauthorized
  else if reply.httpResponseCode = 409 then
    match reply.json with
    | some json =>
        if json.coolStatusCode = docChangedStatus ∨ json.loolStatusCode = docChangedStatus then
          .docChanged
        else .conflict
    | none => .conflict
  else .failed

namespace Storing

variable (s : Storing)

/-- What `uploadToStorageInternal` does before it calls the storage. -/
def beginUpload (request : UploadRequest) (isUnloading force : Bool) : Storing :=
  let last := { s.currentStorageAttrs with isExitSave := isUnloading }
  { s with
    uploadRequest := some request
    lastStorageAttrs := if force then { last with forced := true } else last
    currentStorageAttrs := .empty
    nextStorageAttrs := .empty
    storageManager := s.storageManager.markLastUploadRequestTime s.now }

/-- How an upload of `file` starts: `start` is what the connection makes of it. -/
def uploadStart (file : Option File) (start : UploadStart) : UploadStart :=
  if s.isAsyncUploading then .busy
  else if file.isNone then .fileNotFound
  else match start with
    | .internalError => .internalError
    | .connectFailed => .connectFailed
    | _ => .running

/-- The `X-COOL-WOPI-Timestamp` header of a PutFile. -/
def timestampHeader (kind : UploadKind) : Option String :=
  if kind = .putFile ∧ s.lastStorageAttrs.forced = false ∧ s.storage.modifiedTime ≠ "" then
    some s.storage.modifiedTime
  else none

/-- The callback's account of an upload that could not be started or sent. -/
def recordUploadError : Storing :=
  { s with
    uploadRequest := s.uploadRequest.map fun request => { request with completed := true }
    storageManager := s.storageManager.setLastUploadResult s.now false
    hist := .uploadErrored :: s.hist }

/-- `uploadLocalFileToStorageAsync` and `setSizeAsUploaded`; `waiting` are the attributes that
were waiting to be uploaded. -/
def startUpload (kind : UploadKind) (file : Option File) (start : UploadStart)
    (waiting : Attributes) (force : Bool) : Storing :=
  let start := s.uploadStart file start
  let attempt : UploadAttempt :=
    ⟨s.hist.length, kind, s.lastStorageAttrs, force, file, s.timestampHeader kind, waiting,
      s.saveUnanswered, start⟩
  let s := s.observe (.uploadAttempted attempt)
  let size := (file.map File.size).getD 0
  let s :=
    match start, file with
    | .running, some file =>
        { s with
          storage :=
            { s.storage with uploadHttpSession := some ⟨attempt.number, kind, file⟩ } }
    | _, _ => s.recordUploadError
  { s with
    storageManager :=
      { s.storageManager with
        sizeAsUploaded := if start = .running ∨ start = .connectFailed then size else 0 } }

/-- The response to the upload in flight arrives at `WopiStorage`. -/
def finishUpload (upload : UploadSession) (reply : UploadReply) : Storing :=
  let time :=
    match reply.result, reply.json with
    | .ok, some json => json.lastModifiedTime
    | _, _ => s.storage.modifiedTime
  { s with
    storage := ⟨time, none⟩
    hist :=
      .uploadFinished upload.attempt upload.kind upload.file reply.result time :: s.hist }

/-- The request is complete, and the result is recorded. -/
def recordUploadResult (success : Bool) : Storing :=
  { s with
    uploadRequest := s.uploadRequest.map fun request => { request with completed := true }
    storageManager := s.storageManager.setLastUploadResult s.now success }

/-- The flags a successful PutFile updates. -/
def recordStored (request : UploadRequest) : Storing :=
  { s with
    saveManager :=
      { s.saveManager with lastModifiedLocalTime := request.newFileModifiedLocalTime }
    storageManager :=
      { s.storageManager with
        lastModifiedServerTimeString := s.storage.modifiedTime
        lastUploadedFileModifiedLocalTime := request.newFileModifiedLocalTime }
    documentChangedInStorage := false
    lastStorageAttrs := .empty }

/-- After a failed upload its attributes go back to the current ones. -/
def restoreAttrs : Storing :=
  { s with
    currentStorageAttrs := s.currentStorageAttrs.merge s.lastStorageAttrs
    lastStorageAttrs := .empty }

/-- The connection of an upload is retired. -/
def retireUpload : Storing := { s with storage := { s.storage with uploadHttpSession := none } }

end Storing

namespace DocumentBroker

variable (s : DocumentBroker)

/-- The activities that wait for an upload end when it cannot be sent. -/
def endUploadActivity : DocumentBroker :=
  match s.docState.activity with
  | .rename => s.endRenameFileCommand
  | .switchingToOffline => s.endActivity
  | _ => s

/-- The upload callback in state `Error`; without a request it is ignored. -/
def onUploadError : DocumentBroker :=
  if s.uploadRequest.isNone then s else (s.storing Storing.recordUploadError).endUploadActivity

/-- The path, name and file a save-as produced. -/
structure SaveAsTarget where
  path : String
  filename : String
  file : Option File
deriving DecidableEq, Repr

/-- `uploadToStorageInternal`. -/
def uploadToStorageInternal (session : Session) (saveAs : Option SaveAsTarget)
    (isRename isExport force : Bool) : DocumentBroker :=
  if !session.isEditable then s
  else
    let path := (saveAs.map SaveAsTarget.path).getD ""
    let filename := (saveAs.map SaveAsTarget.filename).getD ""
    let kind : UploadKind :=
      if path ≠ "" ∧ filename ≠ "" then .putRelative else if isRename then .renameFile else .putFile
    let file := if kind = .putRelative then saveAs.bind SaveAsTarget.file else s.files.uploading
    let request : UploadRequest :=
      ⟨(s.files.uploading.map File.mtime).getD 0, session.id, path ≠ "", isExport, isRename, false⟩
    let waiting := s.currentStorageAttrs
    let start := s.uploadStarts.headD .running
    let unloading := s.isUnloading
    let s := { s with uploadStarts := s.uploadStarts.tail }
    let s := s.storing fun t => t.beginUpload request unloading force
    let running := s.uploadStart file start = .running
    let s := s.storing fun t => t.startUpload kind file start waiting force
    if running then s else s.endUploadActivity

/-- `uploadToStorage`: throttled after a failure unless forced. -/
def uploadToStorage (session : Session) (force : Bool) : DocumentBroker :=
  if force || s.storageManager.lastUploadSuccessful ||
      s.storageManager.canUploadNow s.now s.isUnloading then
    s.uploadToStorageInternal session none false false force
  else s

/-- Upload under the new name, or give the renaming up when its session has left. -/
def uploadRenamed : DocumentBroker :=
  match s.renameSessionId.bind (findSession s.sessions) with
  | none => s.endRenameFileCommand
  | some session => s.uploadToStorageInternal session none true false false

/-- `switchToOffline`. -/
def switchToOffline : DocumentBroker := s.endActivity.markToDestroy

/-- The activity-specific end of a successful PutFile. -/
def afterStored : DocumentBroker :=
  match s.docState.activity with
  | .rename => s.uploadRenamed
  | .switchingToOffline => s.switchToOffline
  | _ => s

end DocumentBroker

/-- The request is for the document itself, not for a copy of it or another name. -/
def UploadRequest.isPlain (request : UploadRequest) : Bool := !request.isSaveAs && !request.isRename

namespace DocumentBroker

variable (s : DocumentBroker)

/-- When the upload has been accepted, the storage has all there is. -/
def isSettled (request : UploadRequest) : Bool :=
  !s.mayBeUnsaved && !s.saveManager.isSaving && s.docState.activity != .rename &&
    if request.isPlain then
      s.files.uploading.all fun file => file.mtime == request.newFileModifiedLocalTime
    else !s.isStorageOutdated

/-- `handleUploadToStorageSuccessful`. -/
def handleUploadToStorageSuccessful (request : UploadRequest) : DocumentBroker :=
  let settled := s.isSettled request
  let s :=
    if request.isPlain then (s.storing fun t => t.recordStored request).afterStored
    else if request.isRename then s.endRenameFileCommand
    else s
  let s := if s.docState.unloadRequested then s.markToDestroy else s
  let s :=
    if (s.isMarkedToDestroy || s.sessions.isEmpty) && !s.isPossiblyModified then s.stop "unloading"
    else s
  s.disconnectClosedSessions (.uploaded settled)

/-- Every session becomes read-only. -/
def makeReadOnly : DocumentBroker := { s with sessions := s.sessions.map Session.setReadOnly }

/-- The session of the request loses its authorization. -/
def invalidateAuthorization (session : Nat) : DocumentBroker :=
  { s with sessions := updateSession s.sessions session fun x => { x with expired := true } }

/-- `handleUploadToStorageFailed`. -/
def handleUploadToStorageFailed (request : UploadRequest) (result : UploadResult) :
    DocumentBroker :=
  let s := if s.docState.activity = .rename then s.endRenameFileCommand else s
  let s :=
    match result with
    | .tooLarge => s.makeReadOnly
    | .diskFull => s.makeReadOnly
    | .unauthorized => s.invalidateAuthorization request.session
    | .failed => s.endActivity.startActivity .syncFileTimestamp
    | .docChanged => s.handleDocumentConflict
    | .conflict => s.handleDocumentConflict
    | .ok => s
  s.storing Storing.restoreAttrs

/-- The upload callback in state `Complete`; without a request it is ignored. -/
def onUploadComplete (result : UploadResult) : DocumentBroker :=
  match s.uploadRequest with
  | none => s
  | some request =>
      let s := s.storing fun t => t.recordUploadResult (result == .ok)
      if result = .ok then s.handleUploadToStorageSuccessful request
      else s.handleUploadToStorageFailed request result

/-- The finished handler of an upload; `again` when there was no response and the connection
reports a failure too. -/
def uploadFinishes (upload : UploadSession) (reply : UploadReply) (again : Bool) :
    DocumentBroker :=
  let s := (s.storing fun t => t.finishUpload upload reply).onUploadComplete reply.result
  if again && reply.httpResponseCode == 0 then (s.storing Storing.retireUpload).onUploadError
  else s

/-- The connect-fail handler of an upload; `again` when the response is reported as failed
too. -/
def uploadConnectFails (again : Bool) : DocumentBroker :=
  let s := (s.storing Storing.retireUpload).onUploadError
  if again then (s.storing Storing.retireUpload).onUploadComplete .failed else s

end DocumentBroker

end CoolOnline.Broker
