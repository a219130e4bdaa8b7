import CoolOnline.Broker.Request
import CoolOnline.Broker.Attributes
import CoolOnline.Broker.Session

/-! # State of a document broker

The members of `DocumentBroker` that saving, uploading and unloading read and write, of the
WOPI storage it owns, and of the files on disk, once the document has been loaded. `Storing`
holds what decides which version of the document is where; it also records, newest first,
what was observed outside the broker: the user's activity, the requests it sent and the
answers it got.
-/

namespace CoolOnline.Broker

/-- A version of the document file. -/
structure File where
  mtime : Nat
  size : Nat
  content : Nat
deriving DecidableEq, Repr

/-- The original document file and its `.upload` and `.uploading` copies. -/
structure Files where
  root : File
  upload : Option File
  uploading : Option File
deriving DecidableEq, Repr

inductive UploadKind
  | putFile
  | putRelative
  | renameFile
deriving DecidableEq, Repr

/-- `StorageBase::UploadResult::Result`. -/
inductive UploadResult
  | ok
  | diskFull
  | tooLarge
  | unauthorized
  | docChanged
  | conflict
  | failed
deriving DecidableEq, Repr

/-- The answer of the Kit to a save: `success`, result `unmodified`, or a failure. -/
inductive SaveAnswer
  | success
  | unmodified
  | failed
deriving DecidableEq, Repr

/-- Saved, or there was nothing to save. -/
def SaveAnswer.isOk : SaveAnswer → Bool
  | .success => true
  | .unmodified => true
  | .failed => false

/-- How `uploadLocalFileToStorageAsync` ends when it returns. -/
inductive UploadStart
  | busy
  | fileNotFound
  | internalError
  | connectFailed
  | running
deriving DecidableEq, Repr

/-- One call of `uploadLocalFileToStorageAsync`, with the request it sends. -/
structure UploadAttempt where
  number : Nat
  kind : UploadKind
  attrs : Attributes
  forced : Bool
  file : Option File
  timestamp : Option String
  waiting : Attributes
  saving : Bool
  start : UploadStart
deriving DecidableEq, Repr

/-- The file was handed over for sending. -/
def UploadAttempt.isSent (attempt : UploadAttempt) : Bool :=
  attempt.start == .running || attempt.start == .connectFailed

/-- A `CheckFileInfo` report, and what the broker made of it: whether it took the version for
its own, the stored timestamp before and after, and whether it is in conflict now. -/
structure FileInfoReport where
  time : String
  size : Nat
  adopted : Bool
  before : String
  after : String
  conflict : Bool
deriving DecidableEq, Repr

/-- How `autoSaveAndStop` saw the document when it called `stop`. -/
structure AutoStop where
  canSave : Bool
  authorizedWriter : Bool
  writerAuthorized : Bool
  limitReached : Bool
deriving DecidableEq, Repr

/-- How the document was when a session left it: whether the session is the last one that can
edit, whether there is something to save or to upload, and whether it can be. -/
structure Leaving where
  lastEditable : Bool
  unsaved : Bool
  notUploaded : Bool
  canSave : Bool
  canUpload : Bool
deriving DecidableEq, Repr

def Leaving.isUnstored (l : Leaving) : Bool := l.unsaved || l.notUploaded

/-- The save or the upload that is needed can still be issued. -/
def Leaving.canStore (l : Leaving) : Bool := l.unsaved && l.canSave || l.notUploaded && l.canUpload

theorem Leaving.not_canStore {l : Leaving} (h : l.isUnstored = false) : l.canStore = false := by
  obtain ⟨hu, hn⟩ := Bool.or_eq_false_iff.mp h
  simp [canStore, hu, hn]

/-- A call of `removeSession`, and whether a save is under way or will be asked for. -/
structure Removal where
  session : Nat
  leaving : Leaving
  saves : Bool
deriving DecidableEq, Repr

/-- Why a session is disconnected: `removeSession`, or one of the loops over the closed
sessions, after an upload or when there is nothing to upload. -/
inductive DisconnectCause
  | removed
  | uploaded (settled : Bool)
  | nothingToUpload (mayBeUnsaved : Bool)
deriving DecidableEq, Repr

/-- A session that is being disconnected from the Kit or erased. -/
structure Disconnection where
  session : Nat
  cause : DisconnectCause
  leaving : Leaving
deriving DecidableEq, Repr

/-- What an outside observer of the broker sees. -/
inductive Obs
  | documentLoaded (file : File) (time : String) (size : Nat)
  | modifyActivity
  | saveRequested (id : Nat) (attrs : Attributes) (overlaps : Bool)
  | saveNotSent (overlaps : Bool)
  | fileWritten (file : File)
  | saveAnswered (id : Nat) (answer : SaveAnswer) (wasModified : Option Bool) (file : Option File)
  | saveTimedOut
  | uploadAttempted (attempt : UploadAttempt)
  | uploadFinished (attempt : Nat) (kind : UploadKind) (file : File) (result : UploadResult)
      (time : String)
  | uploadErrored
  | fileInfoReported (report : FileInfoReport)
  | fileInfoFailed
  | sessionJoined (time : String) (size : Nat)
  | autoStopped (stop : AutoStop)
  | quarantined (file : File)
  | sessionLeft (r : Removal)
  | disconnected (d : Disconnection)
deriving DecidableEq, Repr

/-- A save the broker has asked for and not handled the answer of; once the Kit has
finished, the answer is on its way. -/
structure PendingSave where
  id : Nat
  finished : Option (SaveAnswer × Option Bool × Option File)
deriving DecidableEq, Repr

/-- The HTTP session of an upload in flight and the file it sends. -/
structure UploadSession where
  attempt : Nat
  kind : UploadKind
  file : File
deriving DecidableEq, Repr

/-- `WopiStorage`: the opaque modified time of the host and the upload in flight. An empty
time is unsafe to rely on. -/
structure WopiStorage where
  modifiedTime : String
  uploadHttpSession : Option UploadSession
deriving DecidableEq, Repr

/-- What decides which version of the document is where. -/
structure Storing where
  now : Nat
  lastModifyActivityTime : Nat
  saveManager : SaveManager
  storageManager : StorageManager
  nextStorageAttrs : Attributes
  currentStorageAttrs : Attributes
  lastStorageAttrs : Attributes
  uploadRequest : Option UploadRequest
  documentChangedInStorage : Bool
  storage : WopiStorage
  files : Files
  pendingSaves : List PendingSave
  hist : List Obs
deriving DecidableEq, Repr

/-- `DocumentState::Activity`. -/
inductive Activity
  | none
  | rename
  | saveAs
  | conflict
  | save
  | upload
  | syncFileTimestamp
  | switchingToOffline
  | switchingToOnline
deriving DecidableEq, Repr

inductive KitDisconnected
  | no
  | normal
  | unexpected
deriving DecidableEq, Repr

/-- `DocumentState`; `markedToDestroy` is a status from `Destroying` on. -/
structure DocumentState where
  markedToDestroy : Bool
  activity : Activity
  loaded : Bool
  closeRequested : Bool
  unloadRequested : Bool
  kitDisconnected : KitDisconnected
  interactive : Bool
deriving DecidableEq, Repr

def DocumentState.isKitDisconnected (d : DocumentState) : Bool := d.kitDisconnected != .no

/-- The configuration the broker reads. -/
structure Config where
  alwaysSaveOnExit : Bool
  limStoreFailures : Nat
  idleDocTimeout : Nat
  isViewFileExtension : Bool
  quarantineEnabled : Bool
  indirectionServerEnabled : Bool
  migrationTimeout : Nat
deriving DecidableEq, Repr

/-- `CheckFileInfo` in progress, or completed and not yet reset. -/
structure CheckFileInfo where
  session : Nat
  completed : Bool
deriving DecidableEq, Repr

/-- Where `pollThread` is: in its loop, flushing the sockets after it, or done. -/
inductive Phase
  | polling
  | flushing
  | finished
deriving DecidableEq, Repr

structure DocumentBroker extends Storing where
  config : Config
  phase : Phase
  dataLoss : Bool
  stopped : Bool
  closeReason : String
  docState : DocumentState
  sessions : List Session
  isModified : Bool
  checkFileInfo : Option CheckFileInfo
  renameFilename : String
  renameSessionId : Option Nat
  lastEditingSessionId : Option Nat
  lastActivityTime : Nat
  childConnected : Bool
  shutdownRequestFlag : Bool
  terminationFlag : Bool
  migrateMsgReceived : Bool
  migrationMsgStartTime : Option Nat
  uploadStarts : List UploadStart
deriving DecidableEq, Repr

/-- Record an observation. -/
def Storing.observe (s : Storing) (o : Obs) : Storing := { s with hist := o :: s.hist }

/-- Apply a change to the storing part of a broker. -/
def DocumentBroker.storing (s : DocumentBroker) (f : Storing → Storing) : DocumentBroker :=
  { s with toStoring := f s.toStoring }

@[simp] theorem DocumentBroker.storing_toStoring (s : DocumentBroker) (f : Storing → Storing) :
    (s.storing f).toStoring = f s.toStoring := rfl

namespace Storing

variable (s : Storing)

/-- Potentially document-modifying activity after the last save request. -/
def haveModifyActivityAfterSaveRequest : Bool :=
  s.saveManager.lastSaveRequestTime < s.lastModifyActivityTime

/-- An upload is in flight. -/
def isAsyncUploading : Bool := s.storage.uploadHttpSession.isSome

/-- The `.uploading` file is not the one recorded as uploaded last. -/
def isStorageOutdated : Bool :=
  match s.files.uploading with
  | none => false
  | some file => file.mtime != s.storageManager.lastUploadedFileModifiedLocalTime

/-- The Kit has not answered, or its answer has not been handled. -/
def saveUnanswered : Bool := !s.pendingSaves.isEmpty

end Storing

namespace DocumentBroker

variable (s : DocumentBroker)

def isLoaded : Bool := s.docState.loaded

def isMarkedToDestroy : Bool := s.docState.markedToDestroy || s.stopped

def isUnloading : Bool :=
  s.isMarkedToDestroy || s.docState.closeRequested || s.stopped || s.shutdownRequestFlag ||
    s.docState.unloadRequested

def isPossiblyModified : Bool :=
  if s.haveModifyActivityAfterSaveRequest then true
  else if s.config.isViewFileExtension then !s.saveManager.lastSaveSuccessful
  else s.isModified

end DocumentBroker

inductive NeedToSave
  | no
  | maybe
  | yesModified
  | yesLastSaveFailed
deriving DecidableEq, Repr

inductive NeedToUpload
  | no
  | yes
deriving DecidableEq, Repr

inductive CanSave
  | yes
  | noKit
  | notLoaded
  | noWriteSession
deriving DecidableEq, Repr

namespace DocumentBroker

variable (s : DocumentBroker)

def needToSaveToDisk : NeedToSave :=
  if !s.saveManager.lastSaveSuccessful then .yesLastSaveFailed
  else if s.isModified && !s.config.isViewFileExtension then .yesModified
  else if s.haveModifyActivityAfterSaveRequest then .maybe
  else .no

def needToUploadToStorage : NeedToUpload :=
  if s.isUnloading && s.config.alwaysSaveOnExit && 0 < s.saveManager.version then .yes
  else if !s.storageManager.lastUploadSuccessful && !s.documentChangedInStorage then .yes
  else if s.isStorageOutdated then .yes
  else .no

def canSaveToDisk : CanSave :=
  if s.docState.isKitDisconnected || !s.childConnected then .noKit
  else if !s.isLoaded then .notLoaded
  else if s.sessions.isEmpty || (getWriteableSession s.sessions).isNone then .noWriteSession
  else .yes

def getIdleTime : Nat := toMillis (s.now - s.lastActivityTime)

/-- `startActivity`, which refuses while another activity is executing. -/
def startActivity (activity : Activity) : DocumentBroker :=
  if s.docState.activity = .none then { s with docState := { s.docState with activity := activity } }
  else s

def endActivity : DocumentBroker := { s with docState := { s.docState with activity := .none } }

def markToDestroy : DocumentBroker := { s with docState := { s.docState with markedToDestroy := true } }

/-- `stop`: the first reason is kept. -/
def stop (reason : String) : DocumentBroker :=
  { s with
    closeReason := if s.closeReason = "" then reason else s.closeReason
    stopped := true }

def handleDocumentConflict : DocumentBroker :=
  let s := s.storing fun t => { t with documentChangedInStorage := true }
  if s.sessions.all Session.closeFrame then s.stop "conflict" else s

def endRenameFileCommand : DocumentBroker :=
  { s with renameSessionId := none, renameFilename := "" }.endActivity

end DocumentBroker

end CoolOnline.Broker
