import CoolOnline.Broker.Changes

/-! # Uploads and polling as sequences of changes -/

namespace CoolOnline.Broker

namespace DocumentBroker

variable {s : DocumentBroker} {a : Storing}

/-! ## Uploading -/

theorem uploadToStorageInternal_changes (session : Session) (saveAs : Option SaveAsTarget)
    (isRename isExport force : Bool) (h : Changes a s.toStoring) :
    Changes a (s.uploadToStorageInternal session saveAs isRename isExport force).toStoring := by
  unfold uploadToStorageInternal
  split
  · exact h
  · dsimp only
    generalize (saveAs.map SaveAsTarget.path).getD "" = path
    generalize (saveAs.map SaveAsTarget.filename).getD "" = filename
    generalize hkind : (if path ≠ "" ∧ filename ≠ "" then UploadKind.putRelative
      else if isRename = true then UploadKind.renameFile else UploadKind.putFile) = kind
    generalize hfile : (if kind = .putRelative then saveAs.bind SaveAsTarget.file
      else s.files.uploading) = file
    have hup : s.toStoring.IsUpload ⟨(s.files.uploading.map File.mtime).getD 0, session.id,
        path ≠ "", isExport, isRename, false⟩ kind file := by
      refine ⟨rfl, rfl, ?_, ?_⟩
      · intro hk
        rw [← hfile, if_neg hk]
      · intro hp
        simp only [UploadRequest.isPlain, Bool.and_eq_true, Bool.not_eq_true',
          decide_eq_false_iff_not, not_not] at hp
        rw [← hkind, hp.1, hp.2]
        rfl
    have hc := h.step (Change.attemptUpload _ _ _ _ (s.uploadStarts.headD .running) s.isUnloading
      force hup)
    split
    · exact hc
    · rw [endUploadActivity_toStoring]
      exact hc

theorem uploadToStorage_changes (session : Session) (force : Bool) (h : Changes a s.toStoring) :
    Changes a (s.uploadToStorage session force).toStoring := by
  unfold uploadToStorage
  split
  · exact uploadToStorageInternal_changes session none false false force h
  · exact h

theorem uploadRenamed_changes (h : Changes a s.toStoring) :
    Changes a s.uploadRenamed.toStoring := by
  unfold uploadRenamed
  split
  · exact h
  · exact uploadToStorageInternal_changes _ none true false false h

theorem afterStored_changes (h : Changes a s.toStoring) : Changes a s.afterStored.toStoring := by
  unfold afterStored
  split
  · exact uploadRenamed_changes h
  · exact h
  · exact h

theorem afterStored_same (h : s.docState.activity ≠ .rename) : s.SameDocument s.afterStored := by
  unfold afterStored
  split
  · contradiction
  · exact ⟨rfl, rfl, rfl⟩
  · exact .refl s

/-- A settled document is stored once the upload has been accepted. -/
theorem isSettled_isUnstored {request : UploadRequest} (h : s.isSettled request = true)
    (hnone : s.storage.uploadHttpSession = none) :
    (if request.isPlain then s.storing fun t => t.recordStored request else s).isUnstored = false := by
  simp only [isSettled, Bool.and_eq_true, Bool.not_eq_true', bne_iff_ne, ne_eq] at h
  obtain ⟨⟨⟨hmod, hsaving⟩, -⟩, hfile⟩ := h
  split at hfile
  · rename_i hplain
    rw [if_pos hplain]
    have hout : (s.storing fun t => t.recordStored request).isStorageOutdated = false := by
      have hfiles : (s.storing fun t => t.recordStored request).files = s.files := rfl
      rw [Storing.isStorageOutdated, hfiles]
      cases hu : s.files.uploading with
      | none => rfl
      | some file =>
          show (file.mtime != request.newFileModifiedLocalTime) = false
          simpa [hu] using hfile
    have hasync : (s.storing fun t => t.recordStored request).isAsyncUploading = false := by
      show s.storage.uploadHttpSession.isSome = false
      rw [hnone]
      rfl
    have hm : (s.storing fun t => t.recordStored request).mayBeUnsaved = false := hmod
    have hs : (s.storing fun t => t.recordStored request).saveManager.isSaving = false := hsaving
    simp only [isUnstored, hm, hs, hout, hasync, Bool.or_self]
  · rename_i hplain
    rw [if_neg hplain]
    have hout : s.isStorageOutdated = false := by simpa using hfile
    have hasync : s.isAsyncUploading = false := by
      show s.storage.uploadHttpSession.isSome = false
      rw [hnone]
      rfl
    simp only [isUnstored, hmod, hsaving, hout, hasync, Bool.or_self]

theorem handleUploadToStorageSuccessful_changes {request : UploadRequest}
    (h : Changes a (if request.isPlain then s.toStoring.recordStored request else s.toStoring))
    (hnone : s.storage.uploadHttpSession = none) :
    Changes a (s.handleUploadToStorageSuccessful request).toStoring := by
  unfold handleUploadToStorageSuccessful
  dsimp only
  generalize hs₁ : (if request.isPlain then (s.storing fun t => t.recordStored request).afterStored
    else if request.isRename then s.endRenameFileCommand else s) = s₁
  have hc : Changes a s₁.toStoring := by
    rw [← hs₁]
    split
    · rename_i hplain
      rw [if_pos hplain] at h
      exact afterStored_changes h
    · rename_i hplain
      rw [if_neg hplain] at h
      split <;> exact h
  have hu : s.isSettled request = true → s₁.isUnstored = false := by
    intro hset
    refine Eq.trans (SameDocument.isUnstored ?_) (isSettled_isUnstored hset hnone)
    have hact : s.docState.activity ≠ .rename := by
      simp only [isSettled, Bool.and_eq_true, bne_iff_ne, ne_eq] at hset
      exact hset.1.2
    rw [← hs₁]
    by_cases hplain : request.isPlain = true
    · rw [if_pos hplain, if_pos hplain]
      exact afterStored_same hact
    · rw [if_neg hplain, if_neg hplain]
      exact .ite ⟨rfl, rfl, rfl⟩ (.refl s)
  have h₂ : s₁.SameDocument (if s₁.docState.unloadRequested then s₁.markToDestroy else s₁) :=
    .ite ⟨rfl, rfl, rfl⟩ (.refl s₁)
  generalize (if s₁.docState.unloadRequested then s₁.markToDestroy else s₁) = s₂ at h₂ ⊢
  have h₃ : s₁.SameDocument (if ((s₂.isMarkedToDestroy || s₂.sessions.isEmpty) &&
      !s₂.isPossiblyModified) = true then s₂.stop "unloading" else s₂) :=
    h₂.trans (.ite ⟨rfl, rfl, rfl⟩ (.refl s₂))
  refine disconnectClosedSessions_changes _ ?_ (h₃.toStoring ▸ hc)
  intro hset
  exact h₃.isUnstored.trans (hu hset)

theorem handleDocumentConflict_toStoring :
    s.handleDocumentConflict.toStoring = { s.toStoring with documentChangedInStorage := true } := by
  unfold handleDocumentConflict
  dsimp only
  split <;> rfl

/-- The storing part of a failed upload. -/
theorem handleUploadToStorageFailed_toStoring (request : UploadRequest) (result : UploadResult) :
    (s.handleUploadToStorageFailed request result).toStoring =
      if result = .docChanged ∨ result = .conflict then
        { s.toStoring with documentChangedInStorage := true }.restoreAttrs
      else s.toStoring.restoreAttrs := by
  unfold handleUploadToStorageFailed
  have hr : (if s.docState.activity = .rename then s.endRenameFileCommand else s).toStoring =
      s.toStoring := by
    split <;> rfl
  dsimp only
  generalize (if s.docState.activity = .rename then s.endRenameFileCommand else s) = s₁ at hr ⊢
  rw [storing_toStoring, ← hr]
  cases result with
  | docChanged => rw [handleDocumentConflict_toStoring]; rfl
  | conflict => rw [handleDocumentConflict_toStoring]; rfl
  | failed => rw [startActivity_toStoring]; rfl
  | ok => rfl
  | diskFull => rfl
  | tooLarge => rfl
  | unauthorized => rfl

theorem onUploadComplete_changes (result : UploadResult)
    (h : Changes a (s.toStoring.completeUpload result))
    (hnone : s.storage.uploadHttpSession = none) :
    Changes a (s.onUploadComplete result).toStoring := by
  unfold onUploadComplete
  unfold Storing.completeUpload at h
  split
  · rename_i hreq
    rw [hreq] at h
    exact h
  · rename_i request hreq
    simp only [hreq] at h
    split
    · rename_i hok
      rw [if_pos hok] at h
      exact handleUploadToStorageSuccessful_changes h hnone
    · rename_i hok
      rw [if_neg hok] at h
      rw [handleUploadToStorageFailed_toStoring]
      exact h

/-- The upload callback in state `Error`, after the connection has been retired. -/
theorem onUploadError_changes (h : Changes a s.toStoring) :
    Changes a (s.storing Storing.retireUpload).onUploadError.toStoring := by
  have hl := h.step (Change.loseUpload _)
  unfold onUploadError
  unfold Storing.loseUpload at hl
  split
  · rename_i hreq
    have hreq' : s.uploadRequest.isNone = true := hreq
    rw [if_pos hreq'] at hl
    exact hl
  · rename_i hreq
    have hreq' : ¬ s.uploadRequest.isNone = true := hreq
    rw [if_neg hreq'] at hl
    rw [endUploadActivity_toStoring]
    exact hl

theorem uploadFinishes_changes {upload : UploadSession} (reply : UploadReply) (again : Bool)
    (hup : s.storage.uploadHttpSession = some upload) (h : Changes a s.toStoring) :
    Changes a (s.uploadFinishes upload reply again).toStoring := by
  unfold uploadFinishes
  have hc : Changes a ((s.storing fun t => t.finishUpload upload reply).onUploadComplete
      reply.result).toStoring :=
    onUploadComplete_changes reply.result (h.step (Change.finishUpload _ _ _ hup)) rfl
  dsimp only
  split
  · exact onUploadError_changes hc
  · exact hc

/-- After the upload callback in state `Error`, a request is left only where the error has been
recorded. -/
theorem onUploadError_errored
    (hreq : (s.storing Storing.retireUpload).onUploadError.uploadRequest.isSome = true) :
    .uploadErrored ∈ (s.storing Storing.retireUpload).onUploadError.hist := by
  unfold onUploadError at hreq ⊢
  split
  · rename_i hnone
    rw [if_pos hnone] at hreq
    rw [Option.isNone_iff_eq_none] at hnone
    rw [hnone] at hreq
    cases hreq
  · rw [endUploadActivity_toStoring]
    exact List.mem_cons_self

theorem uploadConnectFails_changes (again : Bool) (h : Changes a s.toStoring) :
    Changes a (s.uploadConnectFails again).toStoring := by
  unfold uploadConnectFails
  have he := onUploadError_changes h
  dsimp only
  split
  · exact onUploadComplete_changes _ (he.step (Change.failLate _ onUploadError_errored)) rfl
  · exact he

end DocumentBroker

end CoolOnline.Broker
