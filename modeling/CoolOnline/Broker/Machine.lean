import CoolOnline.Library.History
import CoolOnline.Broker.Poll

/-! # Runs of a document broker

The events that a broker reacts to once the document is loaded, each at its own time, and the
state it starts from. Messages that come while the sockets are flushed after the loop of
`pollThread` are still handled; nothing is, once the thread has finished.
-/

namespace CoolOnline.Broker

/-- What a finished save leaves in the list of saves. -/
def PendingSave.finish (id : Nat) (result : SaveAnswer × Option Bool × Option File)
    (save : PendingSave) : PendingSave :=
  if save.id = id then { save with finished := some result } else save

namespace Storing

variable (s : Storing)

def tick (now : Nat) : Storing := { s with now := now }

/-- `updateLastModifyingActivityTime`. -/
def modifyActivity : Storing :=
  { s with lastModifyActivityTime := s.now, hist := .modifyActivity :: s.hist }

/-- The Kit finishes a save, successfully with `file`, and copies the document for uploading
(`copyForUpload`) in any case. -/
def kitFinishes (id : Nat) (answer : SaveAnswer) (wasModified : Option Bool) (file : File) :
    Storing :=
  if answer = .success then
    { s with
      files := { s.files with root := file, upload := some file }
      pendingSaves := s.pendingSaves.map (PendingSave.finish id (answer, wasModified, some file))
      hist := .fileWritten file :: s.hist }
  else
    { s with
      files := { s.files with upload := some s.files.root }
      pendingSaves := s.pendingSaves.map (PendingSave.finish id (answer, wasModified, none)) }

end Storing

inductive Event
  | modifyActivity
  | userActivity (session : Option Nat)
  | modifiedStatus (modified : Bool)
  | kitFinishes (id : Nat) (answer : SaveAnswer) (wasModified : Option Bool) (file : File)
  | saveResponse (id : Nat) (session : Nat)
  | manualSave (session : Nat) (extendedData : String)
  | saveToStorage (session : Nat) (force : Bool)
  | saveAs (session : Nat) (target : DocumentBroker.SaveAsTarget) (isExport : Bool)
  | renameFile (session : Nat) (filename : String)
  | switchToOffline (session : Nat)
  | switchToOnline
  | uploadReply (reply : UploadReply) (again : Bool)
  | uploadConnectFails (again : Bool)
  | fileInfo (time : String) (size : Nat)
  | fileInfoFails (unauthorized : Bool)
  | poll (starts : Bool)
  | join (session : Session) (time : String) (size : Nat)
  | joinFails
  | viewLoaded (session : Nat)
  | setPermissions (session : Session)
  | expire (session : Nat)
  | closeFrame (session : Nat)
  | removeSession (session : Nat)
  | sessionGone (session : Nat)
  | interactive (on : Bool)
  | closeDocument (reason : String)
  | kitLost (unexpected : Bool)
  | stop (reason : String)
  | shutdown
  | terminate
  | migrationMessage
  | leaveLoop
  | finish
deriving DecidableEq, Repr

namespace DocumentBroker

variable (s : DocumentBroker)

/-- Run `f` with a session of the document. -/
def withSession (id : Nat) (f : Session → Option DocumentBroker) : Option DocumentBroker :=
  (findSession s.sessions id).bind f

/-- The Kit finishes a save it has been asked for, in a file newer than the one it replaces. -/
def kitFinishes (id : Nat) (answer : SaveAnswer) (wasModified : Option Bool) (file : File) :
    Option DocumentBroker :=
  if (s.pendingSaves.any fun save => save.id = id ∧ save.finished = none) ∧
      s.files.root.mtime < file.mtime then
    some (s.storing fun t => t.kitFinishes id answer wasModified file)
  else none

/-- The answer to a save arrives, through a session of the document. -/
def saveResponse (id : Nat) (session : Session) : Option DocumentBroker :=
  match s.pendingSaves.find? fun save => save.id = id with
  | some ⟨_, some (answer, wasModified, file)⟩ =>
      some (s.handleSaveResponse session id answer wasModified file)
  | _ => none

/-- The `CheckFileInfo` in progress has completed. -/
def completeFileInfo (f : DocumentBroker → Nat → DocumentBroker) : Option DocumentBroker :=
  match s.checkFileInfo with
  | some ⟨session, false⟩ => some (f { s with checkFileInfo := some ⟨session, true⟩ } session)
  | _ => none

/-- What the broker does at an event, or nothing when the event cannot happen. -/
def handle : Event → Option DocumentBroker
  | .modifyActivity => some (s.storing Storing.modifyActivity)
  | .userActivity session =>
      some { s with
        lastActivityTime := s.now
        lastEditingSessionId := if session.isSome then session else s.lastEditingSessionId }
  | .modifiedStatus modified => some { s with isModified := modified }
  | .kitFinishes id answer wasModified file => s.kitFinishes id answer wasModified file
  | .saveResponse id session => s.withSession session (s.saveResponse id)
  | .manualSave session extendedData => s.withSession session fun x =>
      if x.writable then some (s.manualSave x.id extendedData).1 else none
  | .saveToStorage session force => s.withSession session fun x => some (s.uploadToStorage x force)
  | .saveAs session target isExport => s.withSession session fun x =>
      some (s.uploadToStorageInternal x (some target) false isExport false)
  | .renameFile session filename => some (s.handleRenameFileCommand session filename)
  | .switchToOffline session => s.withSession session fun x => some (s.startSwitchingToOffline x)
  | .switchToOnline => some (s.startActivity .switchingToOnline)
  | .uploadReply reply again =>
      s.storage.uploadHttpSession.map fun upload => s.uploadFinishes upload reply again
  | .uploadConnectFails again =>
      if s.isAsyncUploading then some (s.uploadConnectFails again) else none
  | .fileInfo time size => s.completeFileInfo fun s _ => s.fileInfoPassed time size
  | .fileInfoFails unauthorized =>
      s.completeFileInfo fun s session => s.fileInfoFailed session unauthorized
  | .poll starts =>
      if s.phase = .polling ∧ s.stopped = false ∧ s.terminationFlag = false then
        some (s.pollOnce starts)
      else none
  | .join session time size => some (s.addSession session time size)
  | .joinFails => some s.addSessionFailed
  | .viewLoaded session =>
      some { s with
        sessions := updateSession s.sessions session fun x =>
          if x.state = .loading then { x with state := .live } else x }
  | .setPermissions session =>
      some { s with
        sessions := updateSession s.sessions session.id fun x =>
          { session with state := x.state, closeFrame := x.closeFrame, expired := x.expired } }
  | .expire session => some (s.invalidateAuthorization session)
  | .closeFrame session =>
      some { s with
        sessions := updateSession s.sessions session fun x => { x with closeFrame := true } }
  | .removeSession session => s.withSession session fun x => some (s.removeSession x)
  | .sessionGone session => s.withSession session fun x =>
      if x.inWaitDisconnected then some (s.finalRemoveSession x.id) else none
  | .interactive on => some { s with docState := { s.docState with interactive := on } }
  | .closeDocument reason => some (s.closeDocument reason)
  | .kitLost unexpected => some ({ s with childConnected := false }.disconnectedFromKit unexpected)
  | .stop reason => some (s.stop reason)
  | .shutdown => some { s with shutdownRequestFlag := true }
  | .terminate => some { s with terminationFlag := true }
  | .migrationMessage => some { s with migrateMsgReceived := true }
  | .leaveLoop =>
      if s.phase = .polling ∧ (s.stopped ∨ s.terminationFlag) then some s.leaveLoop else none
  | .finish => if s.phase = .flushing then some s.finish else none

/-- One event at its time; time only goes forward. -/
def step (e : Nat × Event) : Option DocumentBroker :=
  if s.now < e.1 ∧ s.phase ≠ .finished then (s.storing fun t => t.tick e.1).handle e.2 else none

end DocumentBroker

end CoolOnline.Broker
