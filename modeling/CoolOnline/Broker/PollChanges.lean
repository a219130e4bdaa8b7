import CoolOnline.Broker.UploadChanges

/-! # Every event is a sequence of changes -/

namespace CoolOnline.Broker

namespace DocumentBroker

variable {s : DocumentBroker} {a : Storing}

/-! ## Save responses -/

theorem not_isStorageOutdated (h : s.needToUploadToStorage = .no) : s.isStorageOutdated = false := by
  unfold needToUploadToStorage at h
  split at h
  · cases h
  · split at h
    · cases h
    · split at h
      · cases h
      · rename_i hout
        exact Bool.eq_false_iff.mpr hout

theorem checkAndUploadToStorage_changes (session : Session) (justSaved : Bool)
    (hsaving : s.needToUploadToStorage = .no → s.saveManager.isSaving = false)
    (h : Changes a s.toStoring) :
    Changes a (s.checkAndUploadToStorage session justSaved).toStoring := by
  unfold checkAndUploadToStorage
  dsimp only
  split
  · exact uploadRenamed_changes h
  · split
    · exact h
    · have hsame : s.SameDocument (if s.docState.activity = .save then s.endActivity else s) :=
        .ite ⟨rfl, rfl, rfl⟩ (.refl s)
      generalize (if s.docState.activity = .save then s.endActivity else s) = s₁ at hsame ⊢
      have h₁ : Changes a s₁.toStoring := hsame.toStoring ▸ h
      generalize (if justSaved then s₁.haveModifyActivityAfterSaveRequest
        else s₁.needToSaveToDisk != .no) = modified
      split
      · exact h₁
      · split
        · exact uploadToStorage_changes session false h₁
        · rename_i hneed
          split
          · rename_i hasync
            refine disconnectClosedSessions_changes _ ?_ h₁
            intro hmod
            have hout : s₁.isStorageOutdated = false := by
              rw [hsame.toStoring]
              exact not_isStorageOutdated (not_not.mp hneed)
            have hsv : s₁.saveManager.isSaving = false := by
              rw [hsame.toStoring]
              exact hsaving (not_not.mp hneed)
            simp only [Bool.not_eq_true'] at hasync
            simp only [isUnstored, hmod, hsv, hasync, hout, Bool.or_self]
          · exact h₁

theorem quarantineUpload_changes (h : Changes a s.toStoring) :
    Changes a s.quarantineUpload.toStoring := by
  unfold quarantineUpload
  split
  · exact h
  · split
    · exact h.step (Change.quarantined _ _)
    · exact h

theorem quarantineUpload_frame : s.quarantineUpload.pendingSaves = s.pendingSaves ∧
    s.quarantineUpload.saveManager = s.saveManager ∧ s.quarantineUpload.now = s.now := by
  unfold quarantineUpload
  split
  · exact ⟨rfl, rfl, rfl⟩
  · split <;> exact ⟨rfl, rfl, rfl⟩

theorem handleSaveResponse_changes (session : Session) {id : Nat} {answer : SaveAnswer}
    {wasModified : Option Bool} {file : Option File} (ht : s.toStoring.Timed)
    (hp : ⟨id, some (answer, wasModified, file)⟩ ∈ s.pendingSaves) (h : Changes a s.toStoring) :
    Changes a (s.handleSaveResponse session id answer wasModified file).toStoring := by
  unfold handleSaveResponse
  obtain ⟨hpend, hsave, hnow⟩ := quarantineUpload_frame (s := s)
  have hq := quarantineUpload_changes h
  dsimp only
  generalize s.quarantineUpload = s₁ at *
  refine checkAndUploadToStorage_changes session _ ?_
    (hq.step (Change.answerSave _ id answer wasModified file (hpend ▸ hp)))
  intro _
  refine RequestManager.setLastRequestResult_isActive _ _ _ ?_
  rw [hsave, hnow]
  exact Nat.le_of_lt ht.1

/-! ## Stopping -/

theorem canStopAtOnce_stored (h : s.canStopAtOnce = true) (hcan : s.canSaveToDisk = .yes) :
    s.needToSaveToDisk = .no ∧ s.isStorageOutdated = false := by
  unfold canStopAtOnce at h
  split at h
  · rename_i hsave
    refine ⟨hsave, ?_⟩
    simp only [Bool.or_eq_true, decide_eq_true_eq, Bool.and_eq_true, Bool.not_eq_true'] at h
    rcases h with h | h
    · exact not_isStorageOutdated h
    · exact h.1
  · simp [hcan] at h

theorem needToSaveToDisk_no (h : s.needToSaveToDisk = .no) : s.isSavedSinceActivity = true := by
  unfold needToSaveToDisk at h
  split at h
  · cases h
  · rename_i hlast
    split at h
    · cases h
    · split at h
      · cases h
      · rename_i hact
        simp_all [isSavedSinceActivity]

theorem autoStop_changes (reason : String) (h : Changes a s.toStoring)
    (hs : s.canSaveToDisk = .yes → writerIsAuthorized s.sessions = true →
      s.saveManager.isSaving = false ∧ s.isSavedSinceActivity = true ∧
        s.isStorageOutdated = false) :
    Changes a (s.autoStop reason).toStoring := by
  refine h.step (Change.autoStopped _ _ ?_)
  intro hcan hauth
  obtain ⟨hsaving, hsaved, hout⟩ := hs (beq_iff_eq.mp hcan) hauth
  simp only [isSavedSinceActivity, Bool.and_eq_true, Bool.not_eq_true'] at hsaved
  exact ⟨hsaving, hsaved.2, hsaved.1, hout⟩

theorem uploadOrStop_changes (reason : String) (hsaving : s.saveManager.isSaving = false)
    (h : Changes a s.toStoring) : Changes a (s.uploadOrStop reason).toStoring := by
  unfold uploadOrStop
  split
  · rename_i hnone
    refine autoStop_changes reason h ?_
    intro _ hauth
    simp [writerIsAuthorized, hnone] at hauth
  · rename_i session hsome
    split
    · rename_i hexp
      refine autoStop_changes reason h ?_
      intro _ hauth
      simp [writerIsAuthorized, hsome, hexp] at hauth
    · exact checkAndUploadToStorage_changes session false (fun _ => hsaving) h

theorem autoSaveAndStop_changes (reason : String) (ht : s.toStoring.Timed)
    (h : Changes a s.toStoring) :
    Changes a (s.autoSaveAndStop reason).toStoring := by
  unfold autoSaveAndStop
  split
  · exact h
  · rename_i hbusy
    simp only [Bool.or_eq_true, not_or, Bool.not_eq_true] at hbusy
    split
    · rename_i hstop
      refine autoStop_changes reason h ?_
      intro hcan _
      obtain ⟨hsave, hout⟩ := canStopAtOnce_stored hstop hcan
      exact ⟨hbusy.1, needToSaveToDisk_no hsave, hout⟩
    · split
      · exact h
      · split
        · rename_i hstop
          refine autoStop_changes reason h ?_
          intro _ _
          simp only [canStopSaved, Bool.and_eq_true, decide_eq_true_eq, Bool.or_eq_true] at hstop
          refine ⟨hbusy.1, ?_, not_isStorageOutdated hstop.1⟩
          exact hstop.2.elim id needToSaveToDisk_no
        · split
          · have hauto := autoSave_changes (s.isPossiblyModified ||
              !s.saveManager.lastSaveSuccessful) ht h
            dsimp only
            split
            · exact hauto
            · rename_i hnot
              have hw := autoSave_not_saved (Bool.eq_false_iff.mpr hnot)
              exact uploadOrStop_changes reason (hw.isSaving.trans hbusy.1) hauto
          · exact h

/-! ## The other activities of the polling thread -/

theorem startRenameFileCommand_changes (ht : s.toStoring.Timed) (h : Changes a s.toStoring) :
    Changes a s.startRenameFileCommand.toStoring := by
  unfold startRenameFileCommand
  split
  · exact h
  · split
    · exact h
    · have h₁ : Changes a (s.startActivity .rename).toStoring := by
        rw [startActivity_toStoring]
        exact h
      dsimp only
      split
      · exact h₁
      · refine sendUnoSave_changes _ _ _ ?_ h₁
        rw [startActivity_toStoring]
        exact ht

theorem handleRenameFileCommand_changes (session : Nat) (filename : String)
    (ht : s.toStoring.Timed) (h : Changes a s.toStoring) :
    Changes a (s.handleRenameFileCommand session filename).toStoring := by
  unfold handleRenameFileCommand
  split
  · exact h
  · split
    · exact h
    · dsimp only
      split
      · exact startRenameFileCommand_changes ht h
      · exact h

theorem startSwitchingToOffline_changes (session : Session) (ht : s.toStoring.Timed)
    (h : Changes a s.toStoring) :
    Changes a (s.startSwitchingToOffline session).toStoring := by
  unfold startSwitchingToOffline
  split
  · exact h
  · refine sendUnoSave_changes _ _ _ ?_ ?_
    · rw [startActivity_toStoring]
      exact ht
    · rw [startActivity_toStoring]
      exact h

theorem fileInfoPassed_changes (time : String) (size : Nat) (h : Changes a s.toStoring) :
    Changes a (s.fileInfoPassed time size).toStoring := by
  unfold fileInfoPassed
  have hc := h.step (Change.fileInfoReported _ time size)
  dsimp only
  split
  · exact handleDocumentConflict_changes hc
  · exact hc

theorem fileInfoFailed_changes (session : Nat) (unauthorized : Bool) (h : Changes a s.toStoring) :
    Changes a (s.fileInfoFailed session unauthorized).toStoring := by
  unfold fileInfoFailed
  have hc := h.step (Change.setLastModifiedTimeUnSafe _)
  dsimp only
  split <;> exact hc

theorem syncFileTimestamp_changes (starts : Bool) (h : Changes a s.toStoring) :
    Changes a (s.syncFileTimestamp starts).toStoring := by
  unfold syncFileTimestamp
  split
  · exact h
  · split
    · exact h.step (Change.setLastModifiedTimeUnSafe _)
    · split <;> exact h

theorem awaitMigration_toStoring (timeout : Nat) :
    (s.awaitMigration timeout).toStoring = s.toStoring := by
  unfold awaitMigration
  split
  · rfl
  · split <;> rfl

theorem retryUpload_changes (hneed : s.needToUploadToStorage ≠ .no) (h : Changes a s.toStoring) :
    Changes a s.retryUpload.toStoring := by
  unfold retryUpload
  split
  · exact h
  · split
    · exact h
    · exact checkAndUploadToStorage_changes _ false (fun hno => absurd hno hneed) h

theorem pollIdle_changes (ht : s.toStoring.Timed) (h : Changes a s.toStoring) :
    Changes a s.pollIdle.toStoring := by
  unfold pollIdle
  have hreset : Changes a ({ s with checkFileInfo := none }.storing
      Storing.resetUploadRequest).toStoring := h.step (Change.resetUploadRequest _)
  have ht₁ : ({ s with checkFileInfo := none }.storing
      Storing.resetUploadRequest).toStoring.Timed := by
    rw [storing_toStoring, Storing.resetUploadRequest]
    split <;> exact ht
  dsimp only
  generalize { s with checkFileInfo := none }.storing Storing.resetUploadRequest = s₁ at hreset ht₁ ⊢
  split
  · exact startRenameFileCommand_changes ht₁ hreset
  · split
    · exact autoSaveAndStop_changes _ ht₁ hreset
    · split
      · split
        · exact autoSaveAndStop_changes _ ht₁ hreset
        · split
          · exact hreset
          · exact autoSaveAndStop_changes _ ht₁ hreset
      · split
        · rw [awaitMigration_toStoring]
          exact hreset
        · split
          · split
            · exact hreset
            · exact autoSaveAndStop_changes _ ht₁ hreset
          · split
            · exact autoSave_changes _ ht₁ hreset
            · split
              · rename_i hretry
                refine retryUpload_changes ?_ hreset
                simp only [Bool.and_eq_true, bne_iff_ne, ne_eq] at hretry
                exact hretry.2
              · exact hreset

theorem pollOnce_changes (starts : Bool) (ht : s.toStoring.Timed) (h : Changes a s.toStoring) :
    Changes a (s.pollOnce starts).toStoring := by
  unfold pollOnce
  split
  · split <;> exact h
  · split
    · exact pollIdle_changes ht h
    · split
      · exact h.step (Change.giveUpSave _)
      · exact h
    · split
      · exact h.step (Change.giveUpSave _)
      · exact h
    · exact syncFileTimestamp_changes starts h
    · exact postponeAutosave_changes 30 h

theorem finish_changes (h : Changes a s.toStoring) : Changes a s.finish.toStoring := by
  unfold finish
  dsimp only
  split
  · exact h.step (Change.quarantined _ _)
  · exact h

theorem addSession_changes (session : Session) (time : String) (size : Nat)
    (h : Changes a s.toStoring) : Changes a (s.addSession session time size).toStoring := by
  unfold addSession
  split
  · exact h
  · have hj := h.step (Change.sessionJoins _ time size)
    dsimp only
    split
    · exact handleDocumentConflict_changes hj
    · exact hj

/-! ## Events -/

theorem withSession_changes {id : Nat} {f : Session → Option DocumentBroker} {s' : DocumentBroker}
    (hf : ∀ session s', f session = some s' → Changes a s'.toStoring)
    (h : s.withSession id f = some s') : Changes a s'.toStoring := by
  obtain ⟨session, -, hs⟩ := Option.bind_eq_some_iff.mp h
  exact hf session s' hs

theorem kitFinishes_changes {id : Nat} {answer : SaveAnswer} {wasModified : Option Bool}
    {file : File} {s' : DocumentBroker} (hs : s.kitFinishes id answer wasModified file = some s')
    (h : Changes a s.toStoring) : Changes a s'.toStoring := by
  unfold kitFinishes at hs
  split at hs
  · rename_i hk
    cases hs
    refine h.step (Change.kitFinishes _ id answer wasModified file ?_ hk.2)
    simpa using hk.1
  · cases hs

theorem saveResponse_changes {id : Nat} {session : Session} {s' : DocumentBroker}
    (ht : s.toStoring.Timed) (hs : s.saveResponse id session = some s')
    (h : Changes a s.toStoring) : Changes a s'.toStoring := by
  unfold saveResponse at hs
  split at hs
  · rename_i hp
    cases hs
    have hid := List.find?_some hp
    have hmem := List.mem_of_find?_eq_some hp
    simp only [decide_eq_true_eq] at hid
    exact handleSaveResponse_changes session ht (hid ▸ hmem) h
  · cases hs

theorem completeFileInfo_changes {f : DocumentBroker → Nat → DocumentBroker} {s' : DocumentBroker}
    (hf : ∀ (s : DocumentBroker) session, Changes a s.toStoring →
      Changes a (f s session).toStoring)
    (hs : s.completeFileInfo f = some s') (h : Changes a s.toStoring) :
    Changes a s'.toStoring := by
  unfold completeFileInfo at hs
  split at hs
  · cases hs
    exact hf _ _ h
  · cases hs

theorem handle_changes {e : Event} {s' : DocumentBroker} (ht : s.toStoring.Timed)
    (hs : s.handle e = some s') (h : Changes a s.toStoring) : Changes a s'.toStoring := by
  cases e with
  | modifyActivity =>
      cases hs
      exact h.step (Change.modifyActivity _ ht)
  | kitFinishes id answer wasModified file => exact kitFinishes_changes hs h
  | saveResponse id session =>
      exact withSession_changes (fun _ _ hx => saveResponse_changes ht hx h) hs
  | manualSave session extendedData =>
      refine withSession_changes (fun x s₁ hx => ?_) hs
      split at hx
      · cases hx
        exact manualSave_changes _ _ ht h
      · cases hx
  | saveToStorage session force =>
      refine withSession_changes (fun x s₁ hx => ?_) hs
      cases hx
      exact uploadToStorage_changes _ _ h
  | saveAs session target isExport =>
      refine withSession_changes (fun x s₁ hx => ?_) hs
      cases hx
      exact uploadToStorageInternal_changes _ _ _ _ _ h
  | renameFile session filename =>
      cases hs
      exact handleRenameFileCommand_changes _ _ ht h
  | switchToOffline session =>
      refine withSession_changes (fun x s₁ hx => ?_) hs
      cases hx
      exact startSwitchingToOffline_changes _ ht h
  | switchToOnline =>
      cases hs
      rw [startActivity_toStoring]
      exact h
  | uploadReply reply again =>
      obtain ⟨upload, hup, rfl⟩ := Option.map_eq_some_iff.mp hs
      exact uploadFinishes_changes reply again hup h
  | uploadConnectFails again =>
      simp only [handle] at hs
      split at hs
      · cases hs
        exact uploadConnectFails_changes again h
      · cases hs
  | fileInfo time size =>
      exact completeFileInfo_changes (fun _ _ h => fileInfoPassed_changes time size h) hs h
  | fileInfoFails unauthorized =>
      exact completeFileInfo_changes
        (fun _ session h => fileInfoFailed_changes session unauthorized h) hs h
  | poll starts =>
      simp only [handle] at hs
      split at hs
      · cases hs
        exact pollOnce_changes starts ht h
      · cases hs
  | join session time size =>
      cases hs
      exact addSession_changes session time size h
  | joinFails =>
      cases hs
      unfold addSessionFailed
      split
      · exact h
      · dsimp only
        split <;> exact h
  | removeSession session =>
      refine withSession_changes (fun x s₁ hx => ?_) hs
      cases hx
      exact removeSession_changes x ht h
  | sessionGone session =>
      refine withSession_changes (fun x s₁ hx => ?_) hs
      split at hx
      · cases hx
        exact h
      · cases hx
  | closeDocument reason =>
      cases hs
      unfold closeDocument
      dsimp only
      split <;> exact h
  | kitLost unexpected =>
      cases hs
      unfold disconnectedFromKit closeDocument
      dsimp only
      split
      · split <;> exact h
      · exact h
  | leaveLoop =>
      simp only [handle] at hs
      split at hs
      · cases hs
        exact h
      · cases hs
  | finish =>
      simp only [handle] at hs
      split at hs
      · cases hs
        exact finish_changes h
      · cases hs
  | _ =>
      cases hs
      exact h

end DocumentBroker

/-- The last save was asked for, and the last answer came, not later than now. -/
def Storing.Clocked (s : Storing) : Prop :=
  s.saveManager.request.lastRequestTime ≤ s.now ∧ s.saveManager.request.lastResponseTime ≤ s.now

/-- Every step is a sequence of elementary changes. -/
theorem DocumentBroker.step_changes {s s' : DocumentBroker} {e : Nat × Event}
    (ht : s.toStoring.Clocked) (hs : s.step e = some s') :
    Changes s.toStoring s'.toStoring := by
  unfold step at hs
  split at hs
  · rename_i hnow
    refine handle_changes ?_ hs ((Changes.refl s.toStoring).step (Change.tick _ e.1 hnow.1))
    exact ⟨Nat.lt_of_le_of_lt ht.1 hnow.1, Nat.lt_of_le_of_lt ht.2 hnow.1⟩
  · cases hs

end CoolOnline.Broker
