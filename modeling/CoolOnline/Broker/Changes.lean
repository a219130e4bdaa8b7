import CoolOnline.Broker.Machine

/-! # What an event can change

Every handler changes the storing part of a broker by a sequence of the elementary changes
below. An invariant of the storing part is proved for each of them once.
-/

namespace CoolOnline.Broker

open Relation

namespace Storing

variable (s : Storing)

/-- Another time for the last check of auto-save. -/
def setAutosaveCheck (time : Nat) : Storing :=
  { s with saveManager := { s.saveManager with lastAutosaveCheckTime := time } }

/-- A save is asked for: its attributes are captured, and the request goes out. -/
def sendSave (userModified autosave : Bool) (extendedData : String) : Storing :=
  (s.captureAttrs userModified autosave extendedData).requestSave

/-- A save is asked for, but cannot be sent to the Kit. -/
def failToSend (userModified autosave : Bool) (extendedData : String) : Storing :=
  let s := s.captureAttrs userModified autosave extendedData
  s.observe (.saveNotSent s.saveUnanswered)

/-- The storing part of `uploadToStorageInternal`. -/
def attemptUpload (request : UploadRequest) (kind : UploadKind) (file : Option File)
    (start : UploadStart) (unloading force : Bool) : Storing :=
  (s.beginUpload request unloading force).startUpload kind file start s.currentStorageAttrs force

/-- The storing part of the upload callback in state `Complete`. -/
def completeUpload (result : UploadResult) : Storing :=
  match s.uploadRequest with
  | none => s
  | some request =>
      let s := s.recordUploadResult (result == .ok)
      if result = .ok then if request.isPlain then s.recordStored request else s
      else if result = .docChanged ∨ result = .conflict then
        { s with documentChangedInStorage := true }.restoreAttrs
      else s.restoreAttrs

/-- The storing part of the connect-fail handler of an upload. -/
def loseUpload : Storing :=
  if s.uploadRequest.isNone then s.retireUpload else s.retireUpload.recordUploadError

/-- The request an upload is made with: a new one, and one for the document itself when a
PutFile is sent for it. -/
structure IsUpload (request : UploadRequest) (kind : UploadKind) (file : Option File) : Prop where
  not_completed : request.completed = false
  mtime : request.newFileModifiedLocalTime = (s.files.uploading.map File.mtime).getD 0
  file_eq : kind ≠ .putRelative → file = s.files.uploading
  kind_eq : request.isPlain = true → kind = .putFile

/-- What holds when `autoSaveAndStop` calls `stop` although it could save and upload. -/
def StopsStored (stop : AutoStop) : Prop :=
  stop.canSave = true → stop.writerAuthorized = true →
    s.saveManager.isSaving = false ∧ s.saveManager.lastSaveSuccessful = true ∧
      s.haveModifyActivityAfterSaveRequest = false ∧ s.isStorageOutdated = false

/-- Why the last session that can edit may be disconnected. -/
def MayDisconnect (d : Disconnection) : Prop :=
  match d.cause with
  | .removed =>
      ∃ r, .sessionLeft r ∈ s.hist ∧ r.leaving = d.leaving ∧
        (d.leaving.lastEditable = true → r.saves = false)
  | .uploaded settled => settled = true → d.leaving.isUnstored = false
  | .nothingToUpload mayBeUnsaved => mayBeUnsaved = false → d.leaving.isUnstored = false

/-- The last save was asked for, and the last answer came, before this event. -/
def Timed : Prop :=
  s.saveManager.request.lastRequestTime < s.now ∧ s.saveManager.request.lastResponseTime < s.now

end Storing

open Storing in
/-- The elementary changes of the storing part. -/
inductive Change : Storing → Storing → Prop
  | tick (s : Storing) (now : Nat) (h : s.now < now) : Change s (s.tick now)
  | modifyActivity (s : Storing) (h : s.Timed) : Change s s.modifyActivity
  | setAutosaveCheck (s : Storing) (time : Nat) : Change s (s.setAutosaveCheck time)
  | sendSave (s : Storing) (userModified autosave : Bool) (extendedData : String)
      (h : s.Timed) :
      Change s (s.sendSave userModified autosave extendedData)
  | failToSend (s : Storing) (userModified autosave : Bool) (extendedData : String) :
      Change s (s.failToSend userModified autosave extendedData)
  | kitFinishes (s : Storing) (id : Nat) (answer : SaveAnswer) (wasModified : Option Bool)
      (file : File) (hp : ∃ save ∈ s.pendingSaves, save.id = id ∧ save.finished = none)
      (hm : s.files.root.mtime < file.mtime) :
      Change s (s.kitFinishes id answer wasModified file)
  | answerSave (s : Storing) (id : Nat) (answer : SaveAnswer) (wasModified : Option Bool)
      (file : Option File) (h : ⟨id, some (answer, wasModified, file)⟩ ∈ s.pendingSaves) :
      Change s (s.answerSave id answer wasModified file)
  | giveUpSave (s : Storing) : Change s s.giveUpSave
  | attemptUpload (s : Storing) (request : UploadRequest) (kind : UploadKind)
      (file : Option File) (start : UploadStart) (unloading force : Bool)
      (h : s.IsUpload request kind file) :
      Change s (s.attemptUpload request kind file start unloading force)
  | finishUpload (s : Storing) (upload : UploadSession) (reply : UploadReply)
      (h : s.storage.uploadHttpSession = some upload) :
      Change s ((s.finishUpload upload reply).completeUpload reply.result)
  | loseUpload (s : Storing) : Change s s.loseUpload
  | failLate (s : Storing) (h : s.uploadRequest.isSome → .uploadErrored ∈ s.hist) :
      Change s (s.retireUpload.completeUpload .failed)
  | resetUploadRequest (s : Storing) : Change s s.resetUploadRequest
  | conflict (s : Storing) : Change s { s with documentChangedInStorage := true }
  | fileInfoReported (s : Storing) (time : String) (size : Nat) :
      Change s (s.fileInfoReported time size)
  | setLastModifiedTimeUnSafe (s : Storing) : Change s s.setLastModifiedTimeUnSafe
  | sessionJoins (s : Storing) (time : String) (size : Nat) : Change s (s.sessionJoins time size)
  | quarantined (s : Storing) (file : File) : Change s (s.observe (.quarantined file))
  | autoStopped (s : Storing) (stop : AutoStop) (h : s.StopsStored stop) :
      Change s (s.observe (.autoStopped stop))
  | sessionLeft (s : Storing) (r : Removal) : Change s (s.observe (.sessionLeft r))
  | disconnected (s : Storing) (d : Disconnection) (h : s.MayDisconnect d) :
      Change s (s.observe (.disconnected d))

namespace Storing

variable (s : Storing)

@[simp] theorem recordUploadResult_hist (success : Bool) :
    (s.recordUploadResult success).hist = s.hist := rfl

@[simp] theorem recordStored_hist (request : UploadRequest) :
    (s.recordStored request).hist = s.hist := rfl

@[simp] theorem restoreAttrs_hist : s.restoreAttrs.hist = s.hist := rfl

@[simp] theorem completeUpload_hist (result : UploadResult) :
    (s.completeUpload result).hist = s.hist := by
  unfold completeUpload
  split
  · rfl
  · split
    · split <;> rfl
    · split <;> rfl

theorem startUpload_hist (kind : UploadKind) (file : Option File) (start : UploadStart)
    (waiting : Attributes) (force : Bool) :
    s.hist <:+ (s.startUpload kind file start waiting force).hist := by
  unfold startUpload
  dsimp only
  split
  · exact ⟨[_], rfl⟩
  · exact ⟨[_, _], rfl⟩

end Storing

/-- Changes only add observations. -/
theorem Change.hist_suffix {s s' : Storing} (h : Change s s') : s.hist <:+ s'.hist := by
  cases h with
  | kitFinishes id answer wasModified file =>
      unfold Storing.kitFinishes
      split
      · exact List.suffix_cons _ _
      · exact List.suffix_rfl
  | attemptUpload request kind file start unloading force =>
      exact Storing.startUpload_hist (s.beginUpload request unloading force) kind file start
        s.currentStorageAttrs force
  | finishUpload upload reply =>
      rw [Storing.completeUpload_hist]
      exact List.suffix_cons _ _
  | loseUpload =>
      unfold Storing.loseUpload
      split
      · exact List.suffix_rfl
      · exact List.suffix_cons _ _
  | failLate =>
      rw [Storing.completeUpload_hist]
      exact List.suffix_rfl
  | resetUploadRequest =>
      unfold Storing.resetUploadRequest
      split <;> exact List.suffix_rfl
  | tick | setAutosaveCheck | conflict => exact List.suffix_rfl
  | _ => exact List.suffix_cons _ _

/-- A sequence of elementary changes. -/
def Changes : Storing → Storing → Prop := ReflTransGen Change

theorem Changes.refl (s : Storing) : Changes s s := ReflTransGen.refl

theorem Changes.step {a s s' : Storing} (h : Changes a s) (hs : Change s s') : Changes a s' :=
  ReflTransGen.tail h hs

theorem Changes.hist_suffix {s s' : Storing} (h : Changes s s') : s.hist <:+ s'.hist :=
  changes_grow (fun _ _ hs => hs.hist_suffix) h

namespace DocumentBroker

variable {s : DocumentBroker} {a : Storing}

/-! ## What does not touch the storing part -/

@[simp] theorem startActivity_toStoring (activity : Activity) :
    (s.startActivity activity).toStoring = s.toStoring := by
  unfold startActivity
  split <;> rfl

@[simp] theorem endActivity_toStoring : s.endActivity.toStoring = s.toStoring := rfl

@[simp] theorem markToDestroy_toStoring : s.markToDestroy.toStoring = s.toStoring := rfl

@[simp] theorem stop_toStoring (reason : String) : (s.stop reason).toStoring = s.toStoring := rfl

@[simp] theorem endRenameFileCommand_toStoring :
    s.endRenameFileCommand.toStoring = s.toStoring := rfl

@[simp] theorem endUploadActivity_toStoring : s.endUploadActivity.toStoring = s.toStoring := by
  unfold endUploadActivity
  split <;> rfl

@[simp] theorem switchToOffline_toStoring : s.switchToOffline.toStoring = s.toStoring := rfl

@[simp] theorem makeReadOnly_toStoring : s.makeReadOnly.toStoring = s.toStoring := rfl

@[simp] theorem invalidateAuthorization_toStoring (session : Nat) :
    (s.invalidateAuthorization session).toStoring = s.toStoring := rfl

@[simp] theorem removeLoadingSessions_toStoring :
    s.removeLoadingSessions.toStoring = s.toStoring := rfl

@[simp] theorem finalRemoveSession_toStoring (id : Nat) :
    (s.finalRemoveSession id).toStoring = s.toStoring := rfl

@[simp] theorem disconnectFromKit_toStoring (session : Session) :
    (s.disconnectFromKit session).1.toStoring = s.toStoring := by
  unfold disconnectFromKit
  split <;> rfl

/-! ## Saving -/

theorem sendUnoSave_changes (session : Nat) (isAutosave : Bool) (extendedData : String)
    (ht : s.toStoring.Timed) (h : Changes a s.toStoring) :
    Changes a (s.sendUnoSave session isAutosave extendedData).1.toStoring := by
  unfold sendUnoSave
  by_cases hf : (s.storing fun t => t.captureAttrs (s.isModified ||
      s.haveModifyActivityAfterSaveRequest) isAutosave extendedData).canForwardToChild session
  · simp only [hf, if_true, startActivity_toStoring, storing_toStoring]
    exact h.step (Change.sendSave _ _ _ _ ht)
  · simp only [hf]
    exact h.step (Change.failToSend _ _ _ _)

theorem postponeAutosave_changes (seconds : Nat) (h : Changes a s.toStoring) :
    Changes a (s.storing fun t => t.postponeAutosave seconds).toStoring := by
  have hp : ∃ time, s.toStoring.postponeAutosave seconds = s.setAutosaveCheck time := by
    unfold Storing.postponeAutosave SaveManager.postponeAutosave
    dsimp only
    split
    · exact ⟨_, rfl⟩
    · exact ⟨s.saveManager.lastAutosaveCheckTime, rfl⟩
  obtain ⟨time, hp⟩ := hp
  rw [storing_toStoring, hp]
  exact h.step (Change.setAutosaveCheck _ time)

theorem manualSave_changes (session : Nat) (extendedData : String) (ht : s.toStoring.Timed)
    (h : Changes a s.toStoring) :
    Changes a (s.manualSave session extendedData).1.toStoring := by
  unfold manualSave
  split
  · exact sendUnoSave_changes session false extendedData ht h
  · exact h

theorem autoSave_changes (force : Bool) (ht : s.toStoring.Timed) (h : Changes a s.toStoring) :
    Changes a (s.autoSave force).1.toStoring := by
  unfold autoSave
  have hc : Changes a (s.storing Storing.autoSaveChecked).toStoring :=
    h.step (Change.setAutosaveCheck _ s.now)
  split
  · exact h
  · dsimp only
    split
    · exact hc
    · split
      · exact hc
      · split
        · exact hc
        · split
          · exact sendUnoSave_changes _ _ _ ht hc
          · split
            · exact sendUnoSave_changes _ _ _ ht hc
            · exact hc

/-! ## Sessions -/

theorem handleDocumentConflict_changes (h : Changes a s.toStoring) :
    Changes a s.handleDocumentConflict.toStoring := by
  unfold handleDocumentConflict
  have hc := h.step (Change.conflict _)
  dsimp only
  split <;> exact hc

/-- The document is in `s'` as it is in `s`. -/
structure SameDocument (s s' : DocumentBroker) : Prop where
  toStoring : s'.toStoring = s.toStoring
  config : s'.config = s.config
  isModified : s'.isModified = s.isModified

namespace SameDocument

variable {s' : DocumentBroker}

theorem refl (s : DocumentBroker) : s.SameDocument s := ⟨rfl, rfl, rfl⟩

theorem trans {s'' : DocumentBroker} (h : s.SameDocument s') (h' : s'.SameDocument s'') :
    s.SameDocument s'' :=
  ⟨h'.toStoring.trans h.toStoring, h'.config.trans h.config, h'.isModified.trans h.isModified⟩

theorem ite {c : Prop} [Decidable c] {x y : DocumentBroker} (hx : s.SameDocument x)
    (hy : s.SameDocument y) : s.SameDocument (if c then x else y) := by
  split
  · exact hx
  · exact hy

theorem isUnstored (h : s.SameDocument s') : s'.isUnstored = s.isUnstored := by
  simp only [DocumentBroker.isUnstored, mayBeUnsaved, isPossiblyModified, h.toStoring, h.config,
    h.isModified]

end SameDocument

theorem disconnectFromKit_same (session : Session) :
    s.SameDocument (s.disconnectFromKit session).1 := by
  unfold disconnectFromKit
  split <;> exact ⟨rfl, rfl, rfl⟩

/-- A disconnected session leaves an observation, the document as it was. -/
theorem disconnectSessionInternal_same (session : Session) (cause : DisconnectCause) :
    (s.storing fun t => t.observe (.disconnected (s.disconnection session cause))).SameDocument
      (s.disconnectSessionInternal session cause) := by
  unfold disconnectSessionInternal
  generalize (s.storing fun t => t.observe (.disconnected (s.disconnection session cause))) = s
  have hu : s.SameDocument (if s.docState.unloadRequested then s.markToDestroy else s) :=
    .ite ⟨rfl, rfl, rfl⟩ (.refl s)
  dsimp only
  generalize (if s.docState.unloadRequested then s.markToDestroy else s) = s₁ at hu
  refine hu.trans (.ite ⟨rfl, rfl, rfl⟩ ?_)
  have hk := disconnectFromKit_same (s := s₁) session
  generalize s₁.disconnectFromKit session = disconnected at hk
  have hl : disconnected.1.SameDocument
      (if disconnected.1.sessions.length = countLoadingSessions disconnected.1.sessions + 1 then
        disconnected.1.removeLoadingSessions else disconnected.1) := .ite ⟨rfl, rfl, rfl⟩ (.refl _)
  refine hk.trans (hl.trans ?_)
  generalize (if disconnected.1.sessions.length = countLoadingSessions disconnected.1.sessions + 1
    then disconnected.1.removeLoadingSessions else disconnected.1) = s₂
  have hs : s₂.SameDocument (if (!s₂.isLoaded && decide (s₂.sessions.length ≤ 1)) = true then
      s₂.stop "Disconnected before loading" else s₂) := .ite ⟨rfl, rfl, rfl⟩ (.refl _)
  exact hs.trans (.ite ⟨rfl, rfl, rfl⟩ (.refl _))

theorem disconnectSessionInternal_isUnstored (session : Session) (cause : DisconnectCause) :
    (s.disconnectSessionInternal session cause).isUnstored = s.isUnstored :=
  (disconnectSessionInternal_same session cause).isUnstored

theorem disconnectSessionInternal_changes (session : Session) (cause : DisconnectCause)
    (hd : s.toStoring.MayDisconnect (s.disconnection session cause)) (h : Changes a s.toStoring) :
    Changes a (s.disconnectSessionInternal session cause).toStoring := by
  rw [(disconnectSessionInternal_same session cause).toStoring]
  exact h.step (Change.disconnected _ _ hd)

/-- A loop over the closed sessions may disconnect them all. -/
def MayDisconnectClosed (s : DocumentBroker) : DisconnectCause → Prop
  | .removed => False
  | .uploaded settled => settled = true → s.isUnstored = false
  | .nothingToUpload modified => modified = false → s.isUnstored = false

theorem MayDisconnectClosed.disconnection {cause : DisconnectCause}
    (h : s.MayDisconnectClosed cause) (session : Session) :
    s.toStoring.MayDisconnect (s.disconnection session cause) := by
  cases cause with
  | removed => exact h.elim
  | uploaded settled => exact h
  | nothingToUpload modified => exact h

theorem MayDisconnectClosed.next {cause : DisconnectCause} (h : s.MayDisconnectClosed cause)
    (session : Session) :
    (s.disconnectSessionInternal session cause).MayDisconnectClosed cause := by
  cases cause with
  | removed => exact h
  | uploaded settled =>
      intro hs
      exact (disconnectSessionInternal_isUnstored session _).trans (h hs)
  | nothingToUpload modified =>
      intro hs
      exact (disconnectSessionInternal_isUnstored session _).trans (h hs)

theorem disconnectClosedSessions_changes (cause : DisconnectCause)
    (hd : s.MayDisconnectClosed cause) (h : Changes a s.toStoring) :
    Changes a (s.disconnectClosedSessions cause).toStoring := by
  unfold disconnectClosedSessions
  generalize s.sessions = sessions
  induction sessions generalizing s with
  | nil => exact h
  | cons session sessions ih =>
      rw [List.foldl_cons]
      split
      · exact ih (hd.next session) (disconnectSessionInternal_changes session cause
          (hd.disconnection session) h)
      · exact ih hd h

/-- What says whether there is work to store, and whether it can be, is in `s'` as it is in
`s`. -/
structure SameWork (s s' : DocumentBroker) : Prop where
  sessions : s'.sessions = s.sessions
  config : s'.config = s.config
  isModified : s'.isModified = s.isModified
  docState : s'.docState = s.docState
  childConnected : s'.childConnected = s.childConnected
  lastModifyActivityTime : s'.lastModifyActivityTime = s.lastModifyActivityTime
  request : s'.saveManager.request = s.saveManager.request
  lastUploaded : s'.storageManager.lastUploadedFileModifiedLocalTime =
    s.storageManager.lastUploadedFileModifiedLocalTime
  storage : s'.storage = s.storage
  files : s'.files = s.files

namespace SameWork

variable {s' : DocumentBroker}

theorem refl (s : DocumentBroker) : s.SameWork s := ⟨rfl, rfl, rfl, rfl, rfl, rfl, rfl, rfl, rfl, rfl⟩

theorem isPossiblyModified (h : s.SameWork s') :
    s'.isPossiblyModified = s.isPossiblyModified := by
  simp only [DocumentBroker.isPossiblyModified, Storing.haveModifyActivityAfterSaveRequest,
    SaveManager.lastSaveRequestTime, SaveManager.lastSaveSuccessful, h.config, h.isModified,
    h.lastModifyActivityTime, h.request]
  rfl

theorem isSaving (h : s.SameWork s') : s'.saveManager.isSaving = s.saveManager.isSaving := by
  simp only [SaveManager.isSaving, h.request]

theorem canSaveToDisk (h : s.SameWork s') : s'.canSaveToDisk = s.canSaveToDisk := by
  simp only [DocumentBroker.canSaveToDisk, isLoaded, h.docState, h.childConnected, h.sessions]
  rfl

theorem leaving (h : s.SameWork s') (session : Session) :
    s'.leaving session = s.leaving session := by
  simp only [DocumentBroker.leaving, isLastEditable, mayBeUnsaved, h.isPossiblyModified,
    h.isSaving, SaveManager.lastSaveSuccessful, h.request, Storing.isAsyncUploading,
    Storing.isStorageOutdated, h.lastUploaded, h.storage, h.files, h.canSaveToDisk, h.sessions]

theorem removal (h : s.SameWork s') (session : Session) :
    s'.removal session = s.removal session := by
  simp only [DocumentBroker.removal, h.leaving, willSave, h.isSaving, h.docState, h.config,
    h.isPossiblyModified, h.canSaveToDisk]

end SameWork

/-- Asking for a save either sends it, or leaves what there is to store as it was. -/
theorem sendUnoSave_not_sent {session : Nat} {isAutosave : Bool} {extendedData : String}
    (h : (s.sendUnoSave session isAutosave extendedData).2 = false) :
    s.SameWork (s.sendUnoSave session isAutosave extendedData).1 := by
  unfold sendUnoSave at h ⊢
  dsimp only at h ⊢
  split at h
  · cases h
  · rename_i hf
    rw [if_neg hf]
    exact ⟨rfl, rfl, rfl, rfl, rfl, rfl, rfl, rfl, rfl, rfl⟩

theorem autoSave_not_saved {force : Bool} (h : (s.autoSave force).2 = false) :
    s.SameWork (s.autoSave force).1 := by
  unfold autoSave at h ⊢
  have hc : s.SameWork (s.storing Storing.autoSaveChecked) :=
    ⟨rfl, rfl, rfl, rfl, rfl, rfl, rfl, rfl, rfl, rfl⟩
  have hsend : ∀ session isAutosave, ((s.storing Storing.autoSaveChecked).sendUnoSave session
      isAutosave "").2 = false → s.SameWork ((s.storing Storing.autoSaveChecked).sendUnoSave
        session isAutosave "").1 := by
    intro session isAutosave hs
    have hw := sendUnoSave_not_sent hs
    exact ⟨hw.1, hw.2, hw.3, hw.4, hw.5, hw.6, hw.7, hw.8, hw.9, hw.10⟩
  split
  · rename_i hact
    rw [if_pos hact] at h
    cases h
  · rename_i hact
    rw [if_neg hact] at h
    dsimp only at h ⊢
    split
    · exact hc
    · rename_i hcan
      rw [if_neg hcan] at h
      split
      · exact hc
      · rename_i hmod
        rw [if_neg hmod] at h
        cases hs : (s.storing Storing.autoSaveChecked).savingSession with
        | none => exact hc
        | some session =>
            simp only [hs] at h ⊢
            split
            · rename_i hforce
              rw [if_pos hforce] at h
              exact hsend _ _ h
            · rename_i hforce
              rw [if_neg hforce] at h
              split
              · rename_i hdue
                rw [if_pos hdue] at h
                exact hsend _ _ h
              · exact hc

/-- When the document can be saved, there is a session of it to save with. -/
theorem savingSession_of_canSave (h : s.canSaveToDisk = .yes) :
    ∃ session ∈ s.sessions, s.savingSession = some session ∧ s.childConnected = true := by
  simp only [canSaveToDisk] at h
  split at h
  · cases h
  · rename_i hkit
    split at h
    · cases h
    · split at h
      · cases h
      · rename_i hwriter
        have hchild : s.childConnected = true := by simp_all
        obtain ⟨writer, hw⟩ : ∃ writer, getWriteableSession s.sessions = some writer := by
          cases hg : getWriteableSession s.sessions with
          | none => simp [hg] at hwriter
          | some writer => exact ⟨writer, rfl⟩
        have hfallback : ∃ session ∈ s.sessions,
            getWriteableSession s.sessions = some session ∧ s.childConnected = true :=
          ⟨writer, getWriteableSession_mem hw, hw, hchild⟩
        simp only [savingSession]
        split
        · rename_i session hlast
          obtain ⟨id, _, hfind⟩ := Option.bind_eq_some_iff.mp hlast
          split
          · exact ⟨session, findSession_mem hfind, rfl, hchild⟩
          · exact hfallback
        · exact hfallback

/-- A forced auto-save is under way whenever the document can be saved. -/
theorem autoSave_forced (h : s.canSaveToDisk = .yes) : (s.autoSave true).2 = true := by
  unfold autoSave
  split
  · rfl
  · have hcan : (s.storing Storing.autoSaveChecked).canSaveToDisk = .yes := h
    obtain ⟨session, hmem, hs, hchild⟩ := savingSession_of_canSave hcan
    simp only [hcan, ne_eq, not_true_eq_false, if_false, Bool.not_true, Bool.and_false,
      Bool.false_eq_true, hs, if_true]
    have hf : ∀ f : Storing → Storing,
        ((s.storing Storing.autoSaveChecked).storing f).canForwardToChild session.id = true := by
      intro f
      simp only [canForwardToChild, Bool.and_eq_true]
      exact ⟨findSession_isSome hmem, hchild⟩
    unfold sendUnoSave
    simp only [hf, if_true]

theorem autoSave_saving (h : s.docState.activity = .save) (force : Bool) :
    (s.autoSave force).2 = true := by
  unfold autoSave
  rw [if_pos h]

/-- `removeSession` disconnects the last session that can edit only when no save is under way
and none has been asked for. -/
theorem autoSave_not_willSave (hsaving : s.saveManager.isSaving = false)
    (hs : (s.autoSave (s.config.alwaysSaveOnExit || s.isPossiblyModified)).2 = false) :
    s.willSave = false := by
  have hact : s.docState.activity ≠ .save := by
    intro hact
    rw [autoSave_saving hact] at hs
    cases hs
  have hforce : s.canSaveToDisk = .yes →
      (s.config.alwaysSaveOnExit || s.isPossiblyModified) = false := by
    intro hcan
    cases hf : (s.config.alwaysSaveOnExit || s.isPossiblyModified) with
    | false => rfl
    | true =>
        rw [hf, autoSave_forced hcan] at hs
        cases hs
  by_cases hcan : s.canSaveToDisk = .yes
  · simp [willSave, hsaving, hact, hforce hcan]
  · simp [willSave, hsaving, hact, hcan]

theorem removeSession_changes (session : Session) (ht : s.toStoring.Timed)
    (h : Changes a s.toStoring) :
    Changes a (s.removeSession session).toStoring := by
  unfold removeSession
  have hleft : Changes a
      (s.storing fun t => t.observe (.sessionLeft (s.removal session))).toStoring :=
    h.step (Change.sessionLeft _ _)
  have hr : (s.storing fun t => t.observe (.sessionLeft (s.removal session))).removal session =
      s.removal session :=
    SameWork.removal ⟨rfl, rfl, rfl, rfl, rfl, rfl, rfl, rfl, rfl, rfl⟩ session
  have hmem : .sessionLeft (s.removal session) ∈
      (s.storing fun t => t.observe (.sessionLeft (s.removal session))).hist :=
    List.mem_cons_self
  have ht₁ : (s.storing fun t => t.observe (.sessionLeft (s.removal session))).toStoring.Timed :=
    ht
  dsimp only
  generalize (s.storing fun t => t.observe (.sessionLeft (s.removal session))) = s₁ at *
  rw [← hr] at hmem
  have hend : ∀ s' : DocumentBroker, Changes a s'.toStoring →
      Changes a (if countActiveSessions s.sessions ≤ 1 then
        if (s'.saveManager.isSaving || s'.isAsyncUploading) = true then
          { s' with docState := { s'.docState with unloadRequested := true } }
        else if s'.sessions.isEmpty = true then s'.markToDestroy else s'
      else s').toStoring := by
    intro s' h'
    split
    · split
      · exact h'
      · split <;> exact h'
    · exact h'
  apply hend
  split
  · rename_i hlast
    refine disconnectSessionInternal_changes session _ ⟨_, hmem, rfl, ?_⟩ hleft
    intro hl
    have hl' : s₁.isLastEditable session = true := hl
    rw [hl'] at hlast
    cases hlast
  · split
    · exact hleft
    · rename_i hsaving
      have hauto := autoSave_changes (s₁.config.alwaysSaveOnExit || s₁.isPossiblyModified) ht₁
        hleft
      split
      · exact hauto
      · rename_i hs
        have hgrow : .sessionLeft (s₁.removal session) ∈
            (s₁.autoSave (s₁.config.alwaysSaveOnExit || s₁.isPossiblyModified)).1.hist :=
          (autoSave_changes _ ht₁ (Changes.refl s₁.toStoring)).hist_suffix.mem hmem
        have hnot := Bool.eq_false_iff.mpr hs
        refine disconnectSessionInternal_changes session _ ⟨_, hgrow, ?_, fun _ => ?_⟩ hauto
        · exact ((autoSave_not_saved hnot).leaving session).symm
        · exact autoSave_not_willSave (Bool.eq_false_iff.mpr hsaving) hnot

end DocumentBroker

end CoolOnline.Broker
