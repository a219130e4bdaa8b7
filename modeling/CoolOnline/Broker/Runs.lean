import CoolOnline.Broker.PollChanges

/-! # Runs from a loaded document

The state of a broker once the document is loaded, what a run can change, and what a history of
observations says.
-/

namespace CoolOnline.Broker

/-! ## Histories -/

namespace Obs

/-- The document as loaded, or a file a save has written. -/
def writtenFile? : Obs → Option File
  | .documentLoaded file _ _ => some file
  | .fileWritten file => some file
  | _ => none

def newFile? : Obs → Option File
  | .fileWritten file => some file
  | _ => none

def loadedFile? : Obs → Option File
  | .documentLoaded file _ _ => some file
  | _ => none

/-- The host has answered OK to a PutFile of the file. -/
def acceptedFile? : Obs → Option File
  | .uploadFinished _ .putFile file .ok _ => some file
  | _ => none

/-- A save has succeeded with the file. -/
def savedFile? : Obs → Option File
  | .saveAnswered _ .success _ file => file
  | _ => none

def requestId? : Obs → Option Nat
  | .saveRequested id _ _ => some id
  | _ => none

/-- A save has been answered with success, or there was nothing to save. -/
def okAnswerId? : Obs → Option Nat
  | .saveAnswered id answer _ _ => if answer.isOk then some id else none
  | _ => none

end Obs

def writtenFiles (hist : List Obs) : List File := hist.filterMap Obs.writtenFile?

/-- The files that saves have written. -/
def newFiles (hist : List Obs) : List File := hist.filterMap Obs.newFile?

def loadedFiles (hist : List Obs) : List File := hist.filterMap Obs.loadedFile?

def acceptedFiles (hist : List Obs) : List File := hist.filterMap Obs.acceptedFile?

def requestIds (hist : List Obs) : List Nat := hist.filterMap Obs.requestId?

def okAnswerIds (hist : List Obs) : List Nat := hist.filterMap Obs.okAnswerId?

/-- The file of the last successful save. -/
def lastSavedFile? (hist : List Obs) : Option File := hist.findSome? Obs.savedFile?

/-- The last save request. -/
def lastRequest? (hist : List Obs) : Option Nat := hist.findSome? Obs.requestId?

/-- The last activity that may have modified the document came after the last save request. -/
def unsavedActivity : List Obs → Bool
  | [] => false
  | .modifyActivity :: _ => true
  | .saveRequested _ _ _ :: _ => false
  | _ :: older => unsavedActivity older

/-- Every modifying activity was followed by a save request that has been answered with success
or with `unmodified`. -/
def ActivitySaved (hist : List Obs) : Prop :=
  ∀ newer older, hist = newer ++ .modifyActivity :: older →
    ∃ id ∈ requestIds newer, id ∈ okAnswerIds hist

/-- The host has accepted the file of the last successful save. -/
def LastSaveAccepted (hist : List Obs) : Prop :=
  ∀ file, lastSavedFile? hist = some file → file ∈ acceptedFiles hist

theorem lastRequest?_of_saved {newer older : List Obs}
    (h : unsavedActivity (newer ++ .modifyActivity :: older) = false) :
    ∃ id ∈ requestIds newer, lastRequest? (newer ++ .modifyActivity :: older) = some id := by
  induction newer with
  | nil => cases h
  | cons o newer ih =>
      cases o with
      | modifyActivity => cases h
      | saveRequested id attrs overlaps => exact ⟨id, List.mem_cons_self, rfl⟩
      | _ =>
          obtain ⟨id, hmem, hid⟩ := ih h
          exact ⟨id, hmem, hid⟩

/-- When nothing has been modified since the last request and that one has been answered well,
all modifying activity is saved. -/
theorem activitySaved_of_lastRequest {hist : List Obs} (h : unsavedActivity hist = false)
    (hok : ∀ id, lastRequest? hist = some id → id ∈ okAnswerIds hist) : ActivitySaved hist := by
  intro newer older hsplit
  rw [hsplit] at h hok ⊢
  obtain ⟨id, hmem, hid⟩ := lastRequest?_of_saved h
  exact ⟨id, hmem, hok id hid⟩

/-- What an upload leaves in the history. -/
def Obs.isUpload : Obs → Bool
  | .uploadAttempted _ => true
  | .uploadFinished _ _ _ _ _ => true
  | .uploadErrored => true
  | _ => false

theorem filterMap_of_isUpload {β : Type*} {f : Obs → Option β} (hf : ∀ o, o.isUpload → f o = none)
    {os older : List Obs} (hos : ∀ o ∈ os, o.isUpload) :
    (os ++ older).filterMap f = older.filterMap f := by
  rw [List.filterMap_append, List.filterMap_eq_nil_iff.mpr fun o ho => hf o (hos o ho),
    List.nil_append]

theorem findSome?_of_isUpload {β : Type*} {f : Obs → Option β} (hf : ∀ o, o.isUpload → f o = none)
    {os older : List Obs} (hos : ∀ o ∈ os, o.isUpload) :
    (os ++ older).findSome? f = older.findSome? f := by
  rw [List.findSome?_append, List.findSome?_eq_none_iff.mpr fun o ho => hf o (hos o ho),
    Option.none_or]

theorem along_of_isUpload {P : Obs → List Obs → Prop} (hP : ∀ o older, o.isUpload → P o older)
    {os older : List Obs} (hos : ∀ o ∈ os, o.isUpload) (h : Along P older) :
    Along P (os ++ older) := by
  induction os with
  | nil => exact h
  | cons o os ih =>
      exact ⟨hP o _ (hos o List.mem_cons_self), ih fun x hx => hos x (List.mem_cons_of_mem o hx)⟩

theorem unsavedActivity_of_isUpload {os older : List Obs} (hos : ∀ o ∈ os, o.isUpload) :
    unsavedActivity (os ++ older) = unsavedActivity older := by
  induction os with
  | nil => rfl
  | cons o os ih =>
      have ho := hos o List.mem_cons_self
      have hrest := ih fun x hx => hos x (List.mem_cons_of_mem o hx)
      cases o <;> first | exact hrest | cases ho

/-! ## Runs -/

/-- A broker that has just loaded its document. -/
structure Loaded (s : DocumentBroker) : Prop where
  hist : ∃ size, s.hist = [.documentLoaded s.files.root s.storage.modifiedTime size]
  upload : s.files.upload = none
  uploading : s.files.uploading = none
  pendingSaves : s.pendingSaves = []
  uploadRequest : s.uploadRequest = none
  uploadHttpSession : s.storage.uploadHttpSession = none
  lastUploaded : s.storageManager.lastUploadedFileModifiedLocalTime = s.files.root.mtime
  sizeAsUploaded : s.storageManager.sizeAsUploaded = 0
  sizeOnServer : s.storageManager.sizeOnServer = 0
  nextStorageAttrs : s.nextStorageAttrs = .empty
  currentStorageAttrs : s.currentStorageAttrs = .empty
  lastStorageAttrs : s.lastStorageAttrs = .empty
  lastModifyActivityTime : s.lastModifyActivityTime ≤ s.saveManager.request.lastRequestTime
  lastRequestTime : s.saveManager.request.lastRequestTime ≤ s.saveManager.request.lastResponseTime
  lastResponseTime : s.saveManager.request.lastResponseTime ≤ s.now

/-- A session that is editing. -/
def Session.editor (id : Nat) : Session where
  id := id
  readOnly := false
  allowChangeComments := true
  allowManageRedlines := true
  writable := true
  state := .live
  closeFrame := false
  expired := false
  documentOwner := false

/-- The broker of a document that was downloaded as `file`, with the modified time the host
reported, and has been loaded by `sessions`. -/
def DocumentBroker.load (config : Config) (file : File) (time : String) (sessions : List Session)
    (uploadStarts : List UploadStart) : DocumentBroker where
  now := 1
  lastModifyActivityTime := 0
  saveManager := ⟨⟨500, 1, 1, 0, 0⟩, file.mtime, 0, 300000, 60000, 1, 0⟩
  storageManager := ⟨⟨5000, 1, 1, 0, 0⟩, file.mtime, time, 0, 0⟩
  nextStorageAttrs := .empty
  currentStorageAttrs := .empty
  lastStorageAttrs := .empty
  uploadRequest := none
  documentChangedInStorage := false
  storage := ⟨time, none⟩
  files := ⟨file, none, none⟩
  pendingSaves := []
  hist := [.documentLoaded file time file.size]
  config := config
  phase := .polling
  dataLoss := false
  stopped := false
  closeReason := ""
  docState := ⟨false, .none, true, false, false, .no, false⟩
  sessions := sessions
  isModified := false
  checkFileInfo := none
  renameFilename := ""
  renameSessionId := none
  lastEditingSessionId := none
  lastActivityTime := 1
  childConnected := true
  shutdownRequestFlag := false
  terminationFlag := false
  migrateMsgReceived := false
  migrationMsgStartTime := none
  uploadStarts := uploadStarts

theorem DocumentBroker.load_loaded (config : Config) (file : File) (time : String)
    (sessions : List Session) (uploadStarts : List UploadStart) :
    Loaded (load config file time sessions uploadStarts) :=
  ⟨⟨file.size, rfl⟩, rfl, rfl, rfl, rfl, rfl, rfl, rfl, rfl, rfl, rfl, rfl, Nat.zero_le 1,
    Nat.le_refl 1, Nat.le_refl 1⟩

/-- The default configuration, with the quarantine enabled. -/
def Config.standard : Config where
  alwaysSaveOnExit := false
  limStoreFailures := 5
  idleDocTimeout := 3600
  isViewFileExtension := false
  quarantineEnabled := true
  indirectionServerEnabled := false
  migrationTimeout := 180

theorem Loaded.clocked {s : DocumentBroker} (h : Loaded s) : s.toStoring.Clocked :=
  ⟨Nat.le_trans h.lastRequestTime h.lastResponseTime, h.lastResponseTime⟩

/-- What an upload does not touch: the clock, the saves and the files. -/
structure UploadStep (s s' : Storing) : Prop where
  now : s'.now = s.now
  lastModifyActivityTime : s'.lastModifyActivityTime = s.lastModifyActivityTime
  request : s'.saveManager.request = s.saveManager.request
  pendingSaves : s'.pendingSaves = s.pendingSaves
  files : s'.files = s.files
  hist : ∃ os, s'.hist = os ++ s.hist ∧ ∀ o ∈ os, o.isUpload

namespace UploadStep

variable {s : Storing}

theorem completeUpload {s' : Storing} (h : UploadStep s s') (result : UploadResult) :
    UploadStep s (s'.completeUpload result) := by
  obtain ⟨h1, h2, h3, h4, h5, h6⟩ := h
  unfold Storing.completeUpload
  split
  · exact ⟨h1, h2, h3, h4, h5, h6⟩
  · split
    · split <;> exact ⟨h1, h2, h3, h4, h5, h6⟩
    · split <;> exact ⟨h1, h2, h3, h4, h5, h6⟩

theorem attemptUpload (request : UploadRequest) (kind : UploadKind) (file : Option File)
    (start : UploadStart) (unloading force : Bool) :
    UploadStep s (s.attemptUpload request kind file start unloading force) := by
  unfold Storing.attemptUpload Storing.startUpload
  dsimp only
  split
  · exact ⟨rfl, rfl, rfl, rfl, rfl, [_], rfl, by simp [Obs.isUpload]⟩
  · exact ⟨rfl, rfl, rfl, rfl, rfl, [_, _], rfl, by simp [Obs.isUpload]⟩

theorem finishUpload (upload : UploadSession) (reply : UploadReply) :
    UploadStep s (s.finishUpload upload reply) :=
  ⟨rfl, rfl, rfl, rfl, rfl, [_], rfl, by simp [Obs.isUpload]⟩

theorem loseUpload : UploadStep s s.loseUpload := by
  unfold Storing.loseUpload
  split
  · exact ⟨rfl, rfl, rfl, rfl, rfl, [], rfl, by simp⟩
  · exact ⟨rfl, rfl, rfl, rfl, rfl, [_], rfl, by simp [Obs.isUpload]⟩

theorem retireUpload : UploadStep s s.retireUpload := ⟨rfl, rfl, rfl, rfl, rfl, [], rfl, by simp⟩

theorem resetUploadRequest : UploadStep s s.resetUploadRequest := by
  unfold Storing.resetUploadRequest
  split <;> exact ⟨rfl, rfl, rfl, rfl, rfl, [], rfl, by simp⟩

theorem filterMap_hist {β : Type*} {f : Obs → Option β} {s' : Storing} (h : UploadStep s s')
    (hf : ∀ o, o.isUpload → f o = none) : s'.hist.filterMap f = s.hist.filterMap f := by
  obtain ⟨os, hh, hos⟩ := h.hist
  rw [hh]
  exact filterMap_of_isUpload hf hos

theorem findSome?_hist {β : Type*} {f : Obs → Option β} {s' : Storing} (h : UploadStep s s')
    (hf : ∀ o, o.isUpload → f o = none) : s'.hist.findSome? f = s.hist.findSome? f := by
  obtain ⟨os, hh, hos⟩ := h.hist
  rw [hh]
  exact findSome?_of_isUpload hf hos

theorem writtenFiles_eq {s' : Storing} (h : UploadStep s s') :
    writtenFiles s'.hist = writtenFiles s.hist :=
  h.filterMap_hist fun o ho => by cases o <;> first | rfl | cases ho

theorem loadedFiles_eq {s' : Storing} (h : UploadStep s s') :
    loadedFiles s'.hist = loadedFiles s.hist :=
  h.filterMap_hist fun o ho => by cases o <;> first | rfl | cases ho

theorem newFiles_eq {s' : Storing} (h : UploadStep s s') : newFiles s'.hist = newFiles s.hist :=
  h.filterMap_hist fun o ho => by cases o <;> first | rfl | cases ho

theorem along {P : Obs → List Obs → Prop} {s' : Storing} (h : UploadStep s s')
    (hP : ∀ o older, o.isUpload → P o older) (ha : Along P s.hist) : Along P s'.hist := by
  obtain ⟨os, hh, hos⟩ := h.hist
  rw [hh]
  exact along_of_isUpload hP hos ha

theorem clocked {s' : Storing} (h : UploadStep s s') (hc : s.Clocked) : s'.Clocked := by
  unfold Storing.Clocked at hc ⊢
  rw [h.now, h.request]
  exact hc

end UploadStep

/-- The broker decides to stop, or to disconnect a session. -/
def Obs.isDecision : Obs → Bool
  | .autoStopped _ => true
  | .disconnected _ => true
  | _ => false

/-- A property of the decisions holds along a history when it holds where they are made. -/
theorem Change.along_decisions {P : Obs → List Obs → Prop} {s s' : Storing} (h : Change s s')
    (hother : ∀ o older, o.isDecision = false → P o older)
    (hstop : ∀ stop, .autoStopped stop :: s.hist = s'.hist → s.StopsStored stop →
      P (.autoStopped stop) s.hist)
    (hleave : ∀ d, .disconnected d :: s.hist = s'.hist → s.MayDisconnect d →
      P (.disconnected d) s.hist)
    (hs : Along P s.hist) : Along P s'.hist := by
  have hupload : ∀ {s' : Storing}, UploadStep s s' → Along P s'.hist :=
    fun hstep => hstep.along (fun o _ ho => by cases o <;> first | exact hother _ _ rfl | cases ho) hs
  cases h with
  | autoStopped stop hd => exact ⟨hstop stop rfl hd, hs⟩
  | disconnected d hd => exact ⟨hleave d rfl hd, hs⟩
  | kitFinishes id answer wasModified file =>
      unfold Storing.kitFinishes
      split
      · exact ⟨hother _ _ rfl, hs⟩
      · exact hs
  | attemptUpload request kind file start unloading force =>
      exact hupload (.attemptUpload request kind file start unloading force)
  | finishUpload upload reply =>
      exact hupload ((UploadStep.finishUpload upload reply).completeUpload _)
  | loseUpload => exact hupload .loseUpload
  | failLate => exact hupload (UploadStep.retireUpload.completeUpload _)
  | resetUploadRequest => exact hupload .resetUploadRequest
  | tick | setAutosaveCheck | conflict => exact hs
  | _ => exact ⟨hother _ _ rfl, hs⟩

open Storing in
theorem Change.clocked {s s' : Storing} (h : Change s s') (hc : s.Clocked) : s'.Clocked := by
  cases h with
  | tick now hnow =>
      exact ⟨Nat.le_trans hc.1 (Nat.le_of_lt hnow), Nat.le_trans hc.2 (Nat.le_of_lt hnow)⟩
  | sendSave => exact ⟨Nat.le_refl _, hc.2⟩
  | answerSave | giveUpSave => exact ⟨hc.1, Nat.le_refl _⟩
  | kitFinishes id answer wasModified file =>
      unfold Storing.kitFinishes
      split <;> exact hc
  | attemptUpload request kind file start unloading force =>
      exact (UploadStep.attemptUpload request kind file start unloading force).clocked hc
  | finishUpload upload reply =>
      exact ((UploadStep.finishUpload upload reply).completeUpload _).clocked hc
  | loseUpload => exact UploadStep.loseUpload.clocked hc
  | failLate => exact (UploadStep.retireUpload.completeUpload _).clocked hc
  | resetUploadRequest => exact UploadStep.resetUploadRequest.clocked hc
  | _ => exact hc

theorem Changes.clocked {s s' : Storing} (h : Changes s s') (hc : s.Clocked) : s'.Clocked := by
  induction h with
  | refl => exact hc
  | tail _ hlast ih => exact hlast.clocked ih

/-- A run is a sequence of elementary changes. -/
theorem run_changes {s s' : DocumentBroker} {es : List (Nat × Event)}
    (hrun : run DocumentBroker.step s es = some s') (hc : s.toStoring.Clocked) :
    Changes s.toStoring s'.toStoring := by
  have hi : Changes s.toStoring s'.toStoring ∧ s'.toStoring.Clocked := by
    refine run_invariant DocumentBroker.step
      (I := fun x => Changes s.toStoring x.toStoring ∧ x.toStoring.Clocked) ?_ hrun
      ⟨Changes.refl _, hc⟩
    intro s₁ e s₂ hstep h
    have hs := DocumentBroker.step_changes h.2 hstep
    exact ⟨h.1.trans hs, hs.clocked h.2⟩
  exact hi.1

/-- What every change preserves under `C` holds after a run along whose history `C` holds. -/
theorem run_holds {I : Storing → Prop} {C : Obs → List Obs → Prop} {s s' : DocumentBroker}
    {es : List (Nat × Event)}
    (hchange : ∀ s s', Change s s' → Along C s'.hist → I s → I s')
    (hload : Loaded s) (hrun : run DocumentBroker.step s es = some s')
    (hC : Along C s'.hist) (h : I s.toStoring) : I s'.toStoring :=
  changes_invariant (fun _ _ hs => hs.hist_suffix) hchange (run_changes hrun hload.clocked) hC h

end CoolOnline.Broker
