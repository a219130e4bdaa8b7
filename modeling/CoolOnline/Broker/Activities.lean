import CoolOnline.Broker.ActivityCalls
import CoolOnline.Broker.Changes

/-! # What the handlers do to the activity

Every handler makes its calls in turn, unless the outcome of an upload finds an activity that it
does not belong to. What else the activities depend on changes with the calls only.
-/

namespace CoolOnline.Broker

open DocumentBroker

/-- From `s` to `s'` these calls are made, in turn; an upload is put in flight only when there
are `uploads`, and none is in flight once the timestamp is to be synchronized. -/
structure Acts (s : DocumentBroker) (calls : List ActivityCall) (uploads : Bool)
    (s' : DocumentBroker) : Prop where
  follows : Follows s.activity calls s'.activity
  inTurn : ∀ call ∈ calls, call.inTurn = true
  kept : s.activity = .syncFileTimestamp → calls = []
  uploading : s'.isAsyncUploading = true → s.isAsyncUploading = true ∨ uploads = true
  syncs : ∀ found, .start .syncFileTimestamp found ∈ calls → s'.isAsyncUploading = false
  checkFileInfo : s'.checkFileInfo = s.checkFileInfo
  loaded : s'.docState.loaded = s.docState.loaded
  marked : s.docState.markedToDestroy = true → s'.docState.markedToDestroy = true

/-- No call starts to synchronize the timestamp. -/
def NoSync (calls : List ActivityCall) : Prop :=
  ∀ found, .start .syncFileTimestamp found ∉ calls

theorem noSync_nil : NoSync [] := fun _ h => nomatch h

theorem noSync_endCall (s : DocumentBroker) (operation : Operation) :
    NoSync (s.endCall operation) := by
  intro found h
  simp [endCall] at h

theorem noSync_startCall (s : DocumentBroker) {activity : Activity}
    (h : activity ≠ .syncFileTimestamp) : NoSync (s.startCall activity) := by
  intro found hmem
  simp only [startCall, List.mem_singleton, ActivityCall.start.injEq] at hmem
  exact h hmem.1.symm

theorem NoSync.append {calls calls' : List ActivityCall} (h : NoSync calls) (h' : NoSync calls') :
    NoSync (calls ++ calls') := by
  intro found hmem
  rcases List.mem_append.mp hmem with hmem | hmem
  · exact h found hmem
  · exact h' found hmem

theorem NoSync.ite {c : Prop} [Decidable c] {calls calls' : List ActivityCall} (h : NoSync calls)
    (h' : NoSync calls') : NoSync (if c then calls else calls') := by
  split
  · exact h
  · exact h'

namespace Acts

variable {s s' s'' : DocumentBroker} {calls calls' : List ActivityCall} {uploads uploads' : Bool}

/-- What leaves these parts of a broker alone makes no call. -/
theorem of_same (hactivity : s'.docState.activity = s.docState.activity)
    (huploading : s'.storage.uploadHttpSession = s.storage.uploadHttpSession)
    (hinfo : s'.checkFileInfo = s.checkFileInfo)
    (hloaded : s'.docState.loaded = s.docState.loaded)
    (hmarked : s.docState.markedToDestroy = true → s'.docState.markedToDestroy = true) :
    Acts s [] uploads s' where
  follows := hactivity.symm
  inTurn _ h := nomatch h
  kept _ := rfl
  uploading h := .inl (by rwa [Storing.isAsyncUploading, huploading] at h)
  syncs _ h := nomatch h
  checkFileInfo := hinfo
  loaded := hloaded
  marked := hmarked

theorem refl (s : DocumentBroker) : Acts s [] uploads s := of_same rfl rfl rfl rfl id

theorem storing (f : Storing → Storing)
    (h : (f s.toStoring).storage.uploadHttpSession = s.storage.uploadHttpSession) :
    Acts s [] uploads (s.storing f) :=
  of_same rfl h rfl rfl id

theorem mono (h : Acts s calls false s') : Acts s calls uploads s' :=
  { h with uploading := fun hup => (h.uploading hup).imp_right nofun }

theorem of_le (h : Acts s calls uploads s') (hle : uploads = true → uploads' = true) :
    Acts s calls uploads' s' :=
  { h with uploading := fun hup => (h.uploading hup).imp_right hle }

theorem trans (h : Acts s calls uploads s') (h' : Acts s' calls' uploads s'')
    (hsync : NoSync calls ∨ uploads = false) : Acts s (calls ++ calls') uploads s'' where
  follows := h.follows.append h'.follows
  inTurn call hcall := by
    rcases List.mem_append.mp hcall with hcall | hcall
    · exact h.inTurn call hcall
    · exact h'.inTurn call hcall
  kept hs := by
    have hcalls := h.kept hs
    have hfollows := h.follows
    rw [hcalls] at hfollows ⊢
    exact h'.kept (hfollows.symm.trans hs)
  uploading hup := by
    rcases h'.uploading hup with hup | hup
    · exact h.uploading hup
    · exact .inr hup
  syncs found hmem := by
    rcases List.mem_append.mp hmem with hmem | hmem
    · rcases hsync with hsync | hsync
      · exact absurd hmem (hsync found)
      · have hnone := h.syncs found hmem
        cases hup : s''.isAsyncUploading with
        | false => rfl
        | true =>
            rcases h'.uploading hup with hs' | hs'
            · rw [hnone] at hs'
              cases hs'
            · rw [hsync] at hs'
              cases hs'
    · exact h'.syncs found hmem
  checkFileInfo := h'.checkFileInfo.trans h.checkFileInfo
  loaded := h'.loaded.trans h.loaded
  marked hs := h'.marked (h.marked hs)

/-- First something without calls. -/
theorem after (h : Acts s [] uploads s') (h' : Acts s' calls uploads s'') :
    Acts s calls uploads s'' :=
  h.trans h' (.inl noSync_nil)

/-- Then something without calls and uploads. -/
theorem before (h : Acts s calls uploads s') (h' : Acts s' [] false s'') :
    Acts s calls uploads s'' where
  follows := by simpa using h.follows.append h'.follows
  inTurn := h.inTurn
  kept := h.kept
  uploading hup := h.uploading ((h'.uploading hup).resolve_right nofun)
  syncs found hmem := by
    have hnone := h.syncs found hmem
    cases hup : s''.isAsyncUploading with
    | false => rfl
    | true =>
        rw [(h'.uploading hup).resolve_right nofun] at hnone
        cases hnone
  checkFileInfo := h'.checkFileInfo.trans h.checkFileInfo
  loaded := h'.loaded.trans h.loaded
  marked hs := h'.marked (h.marked hs)

theorem ite {c : Prop} [Decidable c] {t : DocumentBroker} (h : c → Acts s calls uploads s')
    (h' : ¬ c → Acts s calls' uploads t) :
    Acts s (if c then calls else calls') uploads (if c then s' else t) := by
  split
  · exact h ‹_›
  · exact h' ‹_›

theorem start {activity : Activity} (h : s.activity = .none) (hne : activity ≠ .none)
    (hsync : activity ≠ .syncFileTimestamp) :
    Acts s (s.startCall activity) uploads (s.startActivity activity) where
  follows := by
    have hs : s.docState.activity = .none := h
    simp [Follows, startCall, ActivityCall.found, ActivityCall.next, startActivity,
      DocumentBroker.activity, hs]
  inTurn call hcall := by
    rw [startCall, List.mem_singleton] at hcall
    simp [hcall, ActivityCall.inTurn, h, hne]
  kept hs := by simp [h] at hs
  uploading hup := .inl (by simpa [startActivity, apply_ite] using hup)
  syncs found hmem := absurd hmem (noSync_startCall s hsync found)
  checkFileInfo := by unfold startActivity; split <;> rfl
  loaded := by unfold startActivity; split <;> rfl
  marked hs := by unfold startActivity; split <;> exact hs

/-- The activity ends with an operation that belongs to it, or there is none. -/
theorem ended {operation : Operation}
    (h : s.activity = .none ∨ operation.serves s.activity = true)
    (hop : operation ≠ .fileInfo) (hsync : s.activity ≠ .syncFileTimestamp) :
    Acts s (s.endCall operation) uploads s.endActivity where
  follows := ⟨rfl, rfl⟩
  inTurn call hcall := by
    rw [endCall, List.mem_singleton] at hcall
    subst hcall
    cases operation with
    | fileInfo => exact absurd rfl hop
    | _ => simpa [ActivityCall.inTurn] using h
  kept hs := absurd hs hsync
  uploading hup := .inl hup
  syncs found hmem := absurd hmem (noSync_endCall s operation found)
  checkFileInfo := rfl
  loaded := rfl
  marked hs := hs

end Acts

namespace DocumentBroker

variable {s s' : DocumentBroker} {calls : List ActivityCall} {uploads : Bool}

/-! ## Saving -/

theorem startActivity_of_ne (h : s.activity ≠ .none) (activity : Activity) :
    s.startActivity activity = s := if_neg h

theorem sendUnoSave_acts (session : Nat) (isAutosave : Bool) (extendedData : String) :
    Acts s (s.sendUnoSaveCalls session) uploads
      (s.sendUnoSave session isAutosave extendedData).1 := by
  unfold sendUnoSave sendUnoSaveCalls
  dsimp only
  generalize (s.isModified || s.haveModifyActivityAfterSaveRequest) = userModified
  by_cases hf : s.canForwardToChild session = true
  · have hf' : (s.storing fun t => t.captureAttrs userModified isAutosave
        extendedData).canForwardToChild session = true := hf
    have hsent : Acts s [] uploads ((s.storing fun t => t.captureAttrs userModified isAutosave
        extendedData).storing Storing.requestSave) := .of_same rfl rfl rfl rfl id
    rw [if_pos hf']
    by_cases hs : s.activity = .none
    · rw [if_pos ⟨hf, hs⟩]
      exact hsent.after (.start hs (by decide) (by decide))
    · have hkept := startActivity_of_ne (s := (s.storing fun t => t.captureAttrs userModified
        isAutosave extendedData).storing Storing.requestSave) hs .save
      rw [if_neg (fun h => hs h.2), hkept]
      exact hsent
  · have hf' : ¬ (s.storing fun t => t.captureAttrs userModified isAutosave
        extendedData).canForwardToChild session = true := hf
    rw [if_neg hf', if_neg (fun h => hf h.1)]
    exact .of_same rfl rfl rfl rfl id

theorem noSync_sendUnoSaveCalls (session : Nat) : NoSync (s.sendUnoSaveCalls session) :=
  .ite (noSync_startCall s (by decide)) noSync_nil

theorem manualSave_acts (session : Nat) (extendedData : String) :
    Acts s (s.manualSaveCalls session) uploads (s.manualSave session extendedData).1 := by
  unfold manualSave manualSaveCalls
  by_cases h : s.docState.activity ≠ .save
  · rw [if_pos h, if_pos (show s.activity ≠ .save from h)]
    exact sendUnoSave_acts session false extendedData
  · rw [if_neg h, if_neg (show ¬ s.activity ≠ .save from h)]
    exact .refl s

theorem autoSave_acts (force : Bool) :
    Acts s (s.autoSaveCalls force) uploads (s.autoSave force).1 := by
  unfold autoSave autoSaveCalls
  by_cases hs : s.activity = .save
  · rw [if_pos hs, if_pos (show s.docState.activity = .save from hs)]
    exact .refl s
  have hchecked : Acts s [] uploads (s.storing Storing.autoSaveChecked) := .storing _ rfl
  rw [if_neg hs, if_neg (show ¬ s.docState.activity = .save from hs)]
  generalize s.storing Storing.autoSaveChecked = t at hchecked
  dsimp only
  by_cases hcan : t.canSaveToDisk ≠ .yes
  · rw [if_pos hcan, if_pos hcan]
    exact hchecked
  rw [if_neg hcan, if_neg hcan]
  by_cases hnothing : (!t.isModified && !force) = true
  · rw [if_pos hnothing, if_pos hnothing]
    exact hchecked
  rw [if_neg hnothing, if_neg hnothing]
  cases t.savingSession with
  | none => exact hchecked
  | some session =>
      by_cases hforce : force = true
      · simp only [hforce, Bool.true_or, if_true]
        exact hchecked.after (sendUnoSave_acts session.id false "")
      · by_cases hdue : (t.isModified && t.timedSaveDue) = true
        · simp only [hforce, hdue, Bool.or_true, if_true, Bool.false_eq_true, if_false]
          exact hchecked.after (sendUnoSave_acts session.id true "")
        · simp only [hforce, hdue, Bool.or_self, Bool.false_eq_true, if_false]
          exact hchecked

theorem noSync_autoSaveCalls (force : Bool) : NoSync (s.autoSaveCalls force) := by
  unfold autoSaveCalls
  apply NoSync.ite noSync_nil
  apply NoSync.ite noSync_nil
  apply NoSync.ite noSync_nil
  split
  · exact noSync_nil
  · exact .ite (noSync_sendUnoSaveCalls _) noSync_nil

/-! ## Uploading -/

theorem endRenameFileCommand_acts {operation : Operation} (h : s.activity = .rename)
    (hop : operation.serves .rename = true) (hfile : operation ≠ .fileInfo) :
    Acts s (s.endCall operation) uploads s.endRenameFileCommand := by
  have hcleared : Acts s [] uploads { s with renameSessionId := none, renameFilename := "" } :=
    .of_same rfl rfl rfl rfl id
  exact hcleared.after (.ended (.inr (h ▸ hop)) hfile (by
    intro hsync
    exact nomatch h.symm.trans hsync))

theorem endUploadActivity_acts :
    Acts s s.endUploadActivityCalls uploads s.endUploadActivity := by
  unfold endUploadActivity endUploadActivityCalls
  cases hs : s.activity with
  | rename =>
      have hs' : s.docState.activity = .rename := hs
      rw [hs']
      exact endRenameFileCommand_acts hs (by decide) (by decide)
  | switchingToOffline =>
      have hs' : s.docState.activity = .switchingToOffline := hs
      rw [hs']
      exact .ended (.inr (by rw [hs]; rfl)) (by decide) (by simp [hs])
  | none | saveAs | conflict | save | upload | syncFileTimestamp | switchingToOnline =>
      have hs' := hs
      unfold DocumentBroker.activity at hs'
      rw [hs']
      exact .refl s

/-- As it is found by a state that shares its activity. -/
theorem endUploadActivity_acts_of {t : DocumentBroker} (h : t.activity = s.activity) :
    Acts t s.endUploadActivityCalls uploads t.endUploadActivity := by
  have hcalls : s.endUploadActivityCalls = t.endUploadActivityCalls := by
    simp only [endUploadActivityCalls, endCall, h]
  rw [hcalls]
  exact endUploadActivity_acts

theorem noSync_endUploadActivityCalls : NoSync s.endUploadActivityCalls := by
  unfold endUploadActivityCalls
  split
  · exact noSync_endCall s _
  · exact noSync_endCall s _
  · exact noSync_nil

theorem onUploadError_acts : Acts s s.onUploadErrorCalls uploads s.onUploadError := by
  unfold onUploadError onUploadErrorCalls
  apply Acts.ite
  · intro _
    exact .refl s
  · intro _
    have hrecorded : Acts s [] uploads (s.storing Storing.recordUploadError) := .storing _ rfl
    exact hrecorded.after endUploadActivity_acts

theorem noSync_onUploadErrorCalls : NoSync s.onUploadErrorCalls :=
  .ite noSync_nil noSync_endUploadActivityCalls

end DocumentBroker

namespace Storing

variable (t : Storing)

/-- Nothing is put in flight when the upload cannot be started or sent. -/
theorem startUpload_session (kind : UploadKind) {file : Option File} {start : UploadStart}
    (waiting : Attributes) (force : Bool) (h : t.uploadStart file start ≠ .running) :
    (t.startUpload kind file start waiting force).storage.uploadHttpSession =
      t.storage.uploadHttpSession := by
  unfold startUpload
  dsimp only
  split
  · exact absurd ‹_› h
  · rfl

end Storing

namespace DocumentBroker

variable {s s' : DocumentBroker} {calls : List ActivityCall} {uploads : Bool}

theorem uploadToStorageInternal_acts (session : Session) (saveAs : Option SaveAsTarget)
    (isRename isExport force : Bool) :
    Acts s (s.uploadToStorageInternalCalls session saveAs)
      (session.isEditable && s.uploadRuns saveAs)
      (s.uploadToStorageInternal session saveAs isRename isExport force) := by
  unfold uploadToStorageInternal uploadToStorageInternalCalls
  by_cases hedit : session.isEditable = true
  · rw [hedit, Bool.not_true, if_neg Bool.false_ne_true, Bool.false_or, Bool.true_and]
    dsimp only
    generalize hpath : (saveAs.map SaveAsTarget.path).getD "" = path
    generalize hname : (saveAs.map SaveAsTarget.filename).getD "" = filename
    generalize hkind : (if path ≠ "" ∧ filename ≠ "" then UploadKind.putRelative
      else if isRename = true then UploadKind.renameFile else UploadKind.putFile) = kind
    generalize hfile : (if kind = .putRelative then saveAs.bind SaveAsTarget.file
      else s.files.uploading) = file
    have hruns : s.uploadRuns saveAs =
        decide (s.uploadStart file (s.uploadStarts.headD .running) = .running) := by
      have hrelative : path ≠ "" ∧ filename ≠ "" ↔ kind = .putRelative := by
        rw [← hkind]
        by_cases hnames : path ≠ "" ∧ filename ≠ ""
        · simp [hnames]
        · rw [if_neg hnames]
          cases isRename <;> simp [hnames]
      have hsame : (if path ≠ "" ∧ filename ≠ "" then saveAs.bind SaveAsTarget.file
          else s.files.uploading) = file := (if_congr hrelative rfl rfl).trans hfile
      unfold uploadRuns
      dsimp only
      rw [hpath, hname, hsame]
    rw [hruns]
    generalize s.uploadStarts.headD .running = start
    by_cases hrun : s.uploadStart file start = .running
    · rw [decide_eq_true hrun, if_pos rfl]
      split
      · exact {
          follows := rfl
          inTurn := nofun
          kept := fun _ => rfl
          uploading := fun _ => .inr rfl
          syncs := nofun
          checkFileInfo := rfl
          loaded := rfl
          marked := id }
      · rename_i hnot
        exact absurd hrun hnot
    · rw [decide_eq_false hrun, if_neg Bool.false_ne_true]
      split
      · rename_i hrun'
        exact absurd hrun' hrun
      · rename_i hnot
        have hkept := Storing.startUpload_session _ kind s.currentStorageAttrs force hnot
        refine Acts.after ?_ (endUploadActivity_acts_of rfl)
        exact .of_same rfl hkept rfl rfl id
  · simp only [hedit, Bool.not_false, Bool.true_or, if_true]
    exact .refl s

theorem uploadToStorage_acts (session : Session) (force : Bool) :
    Acts s (s.uploadToStorageCalls session force) (s.uploadToStorageRuns session force)
      (s.uploadToStorage session force) := by
  have hacts := uploadToStorageInternal_acts (s := s) session none false false force
  unfold uploadToStorage uploadToStorageCalls uploadToStorageRuns
  rw [← uploadDue]
  cases s.uploadDue force with
  | true => exact hacts
  | false => exact .refl s

theorem uploadRenamed_acts (h : s.activity = .rename) :
    Acts s s.uploadRenamedCalls true s.uploadRenamed := by
  unfold uploadRenamed uploadRenamedCalls
  cases s.renameSessionId.bind (findSession s.sessions) with
  | none => exact endRenameFileCommand_acts h rfl (by decide)
  | some session =>
      exact (uploadToStorageInternal_acts session none true false false).of_le fun _ => rfl

theorem switchToOffline_acts (h : s.activity = .switchingToOffline) :
    Acts s (s.endCall .switching) uploads s.switchToOffline := by
  have hended : Acts s (s.endCall .switching) uploads s.endActivity :=
    .ended (.inr (by rw [h]; rfl)) (by decide) (by simp [h])
  exact hended.before (.of_same rfl rfl rfl rfl fun _ => rfl)

theorem afterStored_acts : Acts s s.afterStoredCalls true s.afterStored := by
  unfold afterStored afterStoredCalls
  cases hs : s.activity with
  | rename =>
      have hs' : s.docState.activity = .rename := hs
      rw [hs']
      exact uploadRenamed_acts hs
  | switchingToOffline =>
      have hs' : s.docState.activity = .switchingToOffline := hs
      rw [hs']
      exact switchToOffline_acts hs
  | none | saveAs | conflict | save | upload | syncFileTimestamp | switchingToOnline =>
      have hs' := hs
      unfold DocumentBroker.activity at hs'
      rw [hs']
      exact .refl s

/-! ## Sessions -/

theorem markToDestroy_acts : Acts s [] uploads s.markToDestroy :=
  .of_same rfl rfl rfl rfl fun _ => rfl

theorem stop_acts (reason : String) : Acts s [] uploads (s.stop reason) :=
  .of_same rfl rfl rfl rfl id

theorem handleDocumentConflict_acts : Acts s [] uploads s.handleDocumentConflict := by
  unfold handleDocumentConflict
  dsimp only
  split <;> exact .of_same rfl rfl rfl rfl id

/-- Either way without calls. -/
theorem acts_ite {c : Prop} [Decidable c] {x y : DocumentBroker} (hx : Acts s [] uploads x)
    (hy : Acts s [] uploads y) : Acts s [] uploads (if c then x else y) := by
  split
  · exact hx
  · exact hy

theorem disconnectFromKit_acts (session : Session) :
    Acts s [] uploads (s.disconnectFromKit session).1 := by
  unfold disconnectFromKit
  split <;> exact .of_same rfl rfl rfl rfl id

theorem disconnectSessionInternal_acts (session : Session) (cause : DisconnectCause) :
    Acts s [] uploads (s.disconnectSessionInternal session cause) := by
  unfold disconnectSessionInternal
  dsimp only
  have hobserved : Acts s [] uploads (s.storing fun t =>
      t.observe (.disconnected (s.disconnection session cause))) := .storing _ rfl
  refine hobserved.after ?_
  generalize (s.storing fun t => t.observe (.disconnected (s.disconnection session cause))) = s₁
  have hmarked : Acts s₁ [] uploads
      (if s₁.docState.unloadRequested then s₁.markToDestroy else s₁) :=
    acts_ite markToDestroy_acts (.refl s₁)
  refine hmarked.after ?_
  generalize (if s₁.docState.unloadRequested then s₁.markToDestroy else s₁) = s₂
  apply acts_ite
  · exact .of_same rfl rfl rfl rfl id
  refine (disconnectFromKit_acts session).after ?_
  generalize (s₂.disconnectFromKit session) = disconnected
  have hloading : Acts disconnected.1 [] uploads
      (if disconnected.1.sessions.length = countLoadingSessions disconnected.1.sessions + 1 then
        disconnected.1.removeLoadingSessions else disconnected.1) :=
    acts_ite (.of_same rfl rfl rfl rfl id) (.refl _)
  refine hloading.after ?_
  generalize (if disconnected.1.sessions.length = countLoadingSessions disconnected.1.sessions + 1
    then disconnected.1.removeLoadingSessions else disconnected.1) = s₃
  have hstopped : Acts s₃ [] uploads
      (if (!s₃.isLoaded && decide (s₃.sessions.length ≤ 1)) = true then
        s₃.stop "Disconnected before loading" else s₃) := acts_ite (stop_acts _) (.refl s₃)
  apply hstopped.after
  apply acts_ite
  · exact .of_same rfl rfl rfl rfl id
  · exact .refl _

theorem disconnectClosedSessions_acts (cause : DisconnectCause) :
    Acts s [] uploads (s.disconnectClosedSessions cause) := by
  unfold disconnectClosedSessions
  generalize s.sessions = sessions
  induction sessions generalizing s with
  | nil => exact .refl s
  | cons session sessions ih =>
      rw [List.foldl_cons]
      apply Acts.after _ ih
      exact acts_ite (disconnectSessionInternal_acts session cause) (.refl s)

/-! ## Outcomes of uploads -/

theorem handleUploadToStorageSuccessful_acts (request : UploadRequest)
    (h : request.isPlain = false → request.isRename = true →
      s.activity = .none ∨ s.activity = .rename) :
    Acts s (s.handleUploadToStorageSuccessfulCalls request) true
      (s.handleUploadToStorageSuccessful request) := by
  unfold handleUploadToStorageSuccessful handleUploadToStorageSuccessfulCalls
  dsimp only
  generalize s.isSettled request = settled
  have hfirst : Acts s
      (if request.isPlain then (s.storing fun t => t.recordStored request).afterStoredCalls
        else if request.isRename then s.endCall .rename else []) true
      (if request.isPlain then (s.storing fun t => t.recordStored request).afterStored
        else if request.isRename then s.endRenameFileCommand else s) := by
    apply Acts.ite
    · intro _
      have hstored : Acts s [] true (s.storing fun t => t.recordStored request) := .storing _ rfl
      exact hstored.after afterStored_acts
    · intro hplain
      apply Acts.ite
      · intro hrename
        have hcleared : Acts s [] true { s with renameSessionId := none, renameFilename := "" } :=
          .of_same rfl rfl rfl rfl id
        have hactivity := h (Bool.eq_false_iff.mpr hplain) hrename
        refine hcleared.after (.ended ?_ (by decide) ?_)
        · exact hactivity.imp_right fun hs => by
            show Operation.rename.serves s.activity = true
            rw [hs]
            rfl
        · intro hs
          rcases hactivity with hactivity | hactivity <;> exact nomatch hactivity.symm.trans hs
      · intro _
        exact .refl s
  generalize (if request.isPlain then (s.storing fun t => t.recordStored request).afterStored
    else if request.isRename then s.endRenameFileCommand else s) = s₁ at hfirst
  have hmarked : Acts s₁ [] false (if s₁.docState.unloadRequested then s₁.markToDestroy else s₁) :=
    acts_ite markToDestroy_acts (.refl s₁)
  generalize (if s₁.docState.unloadRequested then s₁.markToDestroy else s₁) = s₂ at hmarked
  have hstopped : Acts s₂ [] false
      (if ((s₂.isMarkedToDestroy || s₂.sessions.isEmpty) && !s₂.isPossiblyModified) = true then
        s₂.stop "unloading" else s₂) := acts_ite (stop_acts _) (.refl s₂)
  exact ((hfirst.before hmarked).before hstopped).before (disconnectClosedSessions_acts _)

/-- A failure ends a renaming, and whatever else an upload belongs to. -/
theorem handleUploadToStorageFailed_acts (request : UploadRequest) (result : UploadResult)
    (hs : s.activity ≠ .syncFileTimestamp) (huploading : s.isAsyncUploading = false)
    (h : result = .failed → s.activity = .none ∨ Operation.upload.serves s.activity = true) :
    Acts s (s.handleUploadToStorageFailedCalls result) false
      (s.handleUploadToStorageFailed request result) := by
  unfold handleUploadToStorageFailed handleUploadToStorageFailedCalls
  dsimp only
  have hrename : Acts s (if s.docState.activity = .rename then s.endCall .upload else []) false
      (if s.docState.activity = .rename then s.endRenameFileCommand else s) :=
    .ite (fun hs => endRenameFileCommand_acts hs rfl (by decide)) fun _ => .refl s
  have hnext : (if s.docState.activity = .rename then s.endRenameFileCommand else s).activity ≠
      .syncFileTimestamp := by
    split
    · exact nofun
    · exact hs
  have hended : result = .failed →
      (if s.docState.activity = .rename then s.endRenameFileCommand else s).activity = .none ∨
        Operation.upload.serves
          (if s.docState.activity = .rename then s.endRenameFileCommand else s).activity = true := by
    intro hresult
    split
    · exact .inl rfl
    · exact h hresult
  have hquiet : (if s.docState.activity = .rename then s.endRenameFileCommand else s).isAsyncUploading =
      false := by
    split <;> exact huploading
  refine Acts.before ?_ (.storing _ rfl)
  refine hrename.trans ?_ (.inr rfl)
  generalize (if s.docState.activity = .rename then s.endRenameFileCommand else s) = t at hnext hended hquiet
  cases result with
  | failed =>
      rw [if_pos rfl]
      refine (Acts.ended (hended rfl) (by decide) hnext).trans ?_ (.inr rfl)
      exact {
        follows := by
          simp [Follows, startCall, ActivityCall.found, ActivityCall.next, startActivity,
            DocumentBroker.activity, endActivity]
        inTurn := fun call hcall => by
          rw [startCall, List.mem_singleton] at hcall
          rw [hcall]
          rfl
        kept := nofun
        uploading := fun hup => .inl hup
        syncs := fun _ _ => hquiet
        checkFileInfo := rfl
        loaded := rfl
        marked := id }
  | ok => exact .refl t
  | docChanged => exact handleDocumentConflict_acts
  | conflict => exact handleDocumentConflict_acts
  | tooLarge => exact .of_same rfl rfl rfl rfl id
  | diskFull => exact .of_same rfl rfl rfl rfl id
  | unauthorized => exact .of_same rfl rfl rfl rfl id

/-- Whatever was in flight is not any longer. -/
theorem settled_acts (f : Storing → Storing)
    (h : (f s.toStoring).storage.uploadHttpSession = none) : Acts s [] uploads (s.storing f) where
  follows := rfl
  inTurn := nofun
  kept _ := rfl
  uploading hup := by
    have hnone : (s.storing f).isAsyncUploading = false := by
      show (f s.toStoring).storage.uploadHttpSession.isSome = false
      rw [h]
      rfl
    rw [hnone] at hup
    cases hup
  syncs := nofun
  checkFileInfo := rfl
  loaded := rfl
  marked := id

/-- The outcome finds no activity, or one that it belongs to. -/
def FindsOwn (s : DocumentBroker) (result : UploadResult) : Prop :=
  ∀ request, s.uploadRequest = some request →
    (result = .failed → s.activity = .none ∨ Operation.upload.serves s.activity = true) ∧
      (result = .ok → request.isPlain = false → request.isRename = true →
        s.activity = .none ∨ s.activity = .rename)

theorem onUploadComplete_acts (result : UploadResult) (hs : s.activity ≠ .syncFileTimestamp)
    (huploading : s.isAsyncUploading = false) (h : s.FindsOwn result) :
    Acts s (s.onUploadCompleteCalls result) (result == .ok) (s.onUploadComplete result) := by
  unfold onUploadComplete onUploadCompleteCalls
  cases hrequest : s.uploadRequest with
  | none => exact .refl s
  | some request =>
      obtain ⟨hfailed, hrename⟩ := h request hrequest
      have hrecorded : Acts s [] (result == .ok)
          (s.storing fun t => t.recordUploadResult (result == .ok)) := .storing _ rfl
      apply hrecorded.after
      dsimp only
      by_cases hok : result = .ok
      · rw [if_pos hok, if_pos hok, hok]
        exact handleUploadToStorageSuccessful_acts request fun hplain => hrename hok hplain
      · rw [if_neg hok, if_neg hok]
        have hacts := handleUploadToStorageFailed_acts (s := s.storing fun t =>
          t.recordUploadResult (result == .ok)) request result hs huploading hfailed
        exact hacts.mono

theorem onUploadError_activity :
    s.onUploadError.activity = .none ∨ s.onUploadError.activity = s.activity := by
  unfold onUploadError
  split
  · exact .inr rfl
  · unfold endUploadActivity
    split
    · exact .inl rfl
    · exact .inl rfl
    · exact .inr rfl

theorem result_of_no_response {reply : UploadReply} (h : reply.httpResponseCode = 0) :
    reply.result = .failed := by
  simp [UploadReply.result, h]

theorem uploadFinishes_acts (upload : UploadSession) (reply : UploadReply) (again : Bool)
    (hs : s.activity ≠ .syncFileTimestamp) (h : s.FindsOwn reply.result) :
    Acts s (s.uploadFinishesCalls upload reply again) true
      (s.uploadFinishes upload reply again) := by
  unfold uploadFinishes uploadFinishesCalls
  have hfinished : Acts s [] true (s.storing fun t => t.finishUpload upload reply) :=
    settled_acts _ rfl
  have hcomplete := onUploadComplete_acts (s := s.storing fun t => t.finishUpload upload reply)
    reply.result hs rfl h
  dsimp only
  apply hfinished.after
  by_cases hagain : (again && reply.httpResponseCode == 0) = true
  · have hresult : reply.result = .failed := by
      rw [Bool.and_eq_true, beq_iff_eq] at hagain
      exact result_of_no_response hagain.2
    rw [if_pos hagain, if_pos hagain]
    rw [hresult] at hcomplete ⊢
    have hretired (t : DocumentBroker) : Acts t [] false (t.storing Storing.retireUpload) :=
      settled_acts _ rfl
    exact (hcomplete.trans ((hretired _).after onUploadError_acts) (.inr rfl)).mono
  · rw [if_neg hagain, if_neg hagain, List.append_nil]
    exact hcomplete.of_le fun _ => rfl

theorem uploadConnectFails_acts (again : Bool) (hs : s.activity ≠ .syncFileTimestamp)
    (h : again = true → s.uploadRequest.isSome = true →
      s.activity = .none ∨ Operation.upload.serves s.activity = true) :
    Acts s (s.uploadConnectFailsCalls again) false (s.uploadConnectFails again) := by
  unfold uploadConnectFails uploadConnectFailsCalls
  have hretired : Acts s [] false (s.storing Storing.retireUpload) := settled_acts _ rfl
  have hrequest : (s.storing Storing.retireUpload).onUploadError.uploadRequest.isSome = true →
      s.uploadRequest.isSome = true := by
    unfold onUploadError
    split
    · exact id
    · intro hsome
      rw [endUploadActivity_toStoring] at hsome
      simpa [Storing.recordUploadError, Storing.retireUpload] using hsome
  dsimp only
  apply hretired.after
  have hactivity := onUploadError_activity (s := s.storing Storing.retireUpload)
  have herror : Acts (s.storing Storing.retireUpload) _ false _ := onUploadError_acts
  have hnosync := noSync_onUploadErrorCalls (s := s.storing Storing.retireUpload)
  generalize (s.storing Storing.retireUpload).onUploadError = t at hactivity herror hrequest
  cases again with
  | false =>
      rw [if_neg Bool.false_ne_true, if_neg Bool.false_ne_true, List.append_nil]
      exact herror
  | true =>
      rw [if_pos rfl, if_pos rfl]
      have hretired' : Acts t [] false (t.storing Storing.retireUpload) := settled_acts _ rfl
      have hlost : (t.storing Storing.retireUpload).activity ≠ .syncFileTimestamp := by
        intro hsync
        rcases hactivity with hnone | hsame
        · exact nomatch hnone.symm.trans hsync
        · exact hs (hsame.symm.trans hsync)
      have hown : (t.storing Storing.retireUpload).FindsOwn .failed := by
        intro request hsome
        refine ⟨fun _ => ?_, nofun⟩
        rcases hactivity with hnone | hsame
        · exact .inl hnone
        · have hfound := h rfl (hrequest (Option.isSome_iff_exists.mpr ⟨request, hsome⟩))
          show t.activity = .none ∨ Operation.upload.serves t.activity = true
          rw [hsame]
          exact hfound
      exact herror.trans (hretired'.after (onUploadComplete_acts .failed hlost rfl hown))
        (.inl hnosync)

/-! ## Save responses -/

theorem checkAndUploadToStorage_acts (session : Session) (justSaved : Bool) :
    Acts s (s.checkAndUploadToStorageCalls session justSaved)
      (s.activity != .syncFileTimestamp || s.checkAndUploadRuns session justSaved)
      (s.checkAndUploadToStorage session justSaved) := by
  unfold checkAndUploadToStorage checkAndUploadToStorageCalls
  dsimp only
  apply Acts.ite
  · intro hrename
    have hs : s.activity = .rename := hrename.1
    rw [hs]
    exact uploadRenamed_acts hs
  intro _
  apply Acts.ite
  · intro hswitching
    exact switchToOffline_acts hswitching.1
  intro _
  have hended : Acts s (if s.docState.activity = .save then s.endCall .save else [])
      (s.activity != .syncFileTimestamp || s.checkAndUploadRuns session justSaved)
      (if s.docState.activity = .save then s.endActivity else s) := by
    apply Acts.ite
    · intro hs
      have hs' : s.activity = .save := hs
      exact .ended (.inr (by rw [hs']; rfl)) (by decide) (by simp [hs'])
    · intro _
      exact .refl s
  have hnosync : NoSync (if s.docState.activity = .save then s.endCall .save else []) :=
    .ite (noSync_endCall s _) noSync_nil
  refine hended.trans ?_ (.inl hnosync)
  have huploads (hsaves : (if s.docState.activity = .save then s.endActivity
      else s).savesAgain justSaved = false) (hneed : s.needToUploadToStorage ≠ .no)
      (hruns : (if s.docState.activity = .save then s.endActivity
        else s).uploadToStorageRuns session false = true) :
      (s.activity != .syncFileTimestamp || s.checkAndUploadRuns session justSaved) = true := by
    by_cases hsave : s.docState.activity = .save
    · have hs' : s.activity = .save := hsave
      rw [hs']
      rfl
    · rw [if_neg hsave] at hsaves hruns
      simp [checkAndUploadRuns, hsaves, hruns, hneed]
  generalize (if s.docState.activity = .save then s.endActivity else s) = t at huploads
  rw [← savesAgain]
  cases hsaves : t.savesAgain justSaved with
  | true => exact .refl t
  | false =>
      rw [if_neg Bool.false_ne_true, if_neg Bool.false_ne_true]
      by_cases hneed : s.needToUploadToStorage ≠ .no
      · rw [if_pos hneed, if_pos hneed]
        exact (uploadToStorage_acts session false).of_le (huploads hsaves hneed)
      · rw [if_neg hneed, if_neg hneed]
        exact acts_ite (disconnectClosedSessions_acts _) (.refl t)

theorem quarantineUpload_acts : Acts s [] uploads s.quarantineUpload := by
  unfold quarantineUpload
  split
  · exact .refl s
  · exact acts_ite (.storing _ rfl) (.refl s)

theorem saveAnswered_acts (id : Nat) (answer : SaveAnswer) (wasModified : Option Bool)
    (file : Option File) : Acts s [] uploads (s.saveAnswered id answer wasModified file) :=
  quarantineUpload_acts.after (.storing _ rfl)

theorem saveAnswered_activity (id : Nat) (answer : SaveAnswer) (wasModified : Option Bool)
    (file : Option File) : (s.saveAnswered id answer wasModified file).activity = s.activity := by
  have hacts : Acts s [] false (s.saveAnswered id answer wasModified file) :=
    saveAnswered_acts id answer wasModified file
  exact hacts.follows.symm

theorem handleSaveResponse_acts (session : Session) (id : Nat) (answer : SaveAnswer)
    (wasModified : Option Bool) (file : Option File) :
    Acts s (s.handleSaveResponseCalls session id answer wasModified file)
      (s.activity != .syncFileTimestamp ||
        (s.saveAnswered id answer wasModified file).checkAndUploadRuns session answer.isOk)
      (s.handleSaveResponse session id answer wasModified file) := by
  have hacts := checkAndUploadToStorage_acts (s := s.saveAnswered id answer wasModified file)
    session answer.isOk
  rw [saveAnswered_activity] at hacts
  exact (saveAnswered_acts id answer wasModified file).after hacts

/-! ## Renaming and switching -/

theorem startActivity_activity (h : s.activity = .none) (activity : Activity) :
    (s.startActivity activity).activity = activity := by
  have hs : s.docState.activity = .none := h
  simp [startActivity, hs, DocumentBroker.activity]

theorem startRenameFileCommand_acts :
    Acts s s.startRenameFileCommandCalls uploads s.startRenameFileCommand := by
  unfold startRenameFileCommand startRenameFileCommandCalls
  cases s.renameSessionId with
  | none => exact .refl s
  | some id =>
      apply Acts.ite
      · intro _
        exact .refl s
      · intro hstart
        have hs : s.activity = .none := not_ne_iff.mp fun h => hstart (.inr h)
        have hstarted : Acts s (s.startCall .rename) uploads (s.startActivity .rename) :=
          .start hs (by decide) (by decide)
        have hrename := startActivity_activity hs .rename
        refine hstarted.trans ?_ (.inl (noSync_startCall s (by decide)))
        dsimp only
        generalize s.startActivity .rename = t at hrename
        cases findSession t.sessions id with
        | none =>
            have hop : Operation.rename.serves .rename = true := rfl
            exact endRenameFileCommand_acts hrename hop (by decide)
        | some session => exact sendUnoSave_acts session.id false ""

theorem handleRenameFileCommand_acts (session : Nat) (filename : String) :
    Acts s (s.handleRenameFileCommandCalls session filename) uploads
      (s.handleRenameFileCommand session filename) := by
  unfold handleRenameFileCommand handleRenameFileCommandCalls
  apply Acts.ite
  · intro _
    exact .refl s
  intro _
  apply Acts.ite
  · intro _
    exact .refl s
  intro _
  have hnamed : Acts s [] uploads
      { s with renameFilename := filename, renameSessionId := some session } :=
    .of_same rfl rfl rfl rfl id
  exact hnamed.after (.ite (fun _ => startRenameFileCommand_acts) fun _ => .refl _)

theorem startSwitchingToOffline_acts (session : Session) :
    Acts s (s.startSwitchingToOfflineCalls session) uploads
      (s.startSwitchingToOffline session) := by
  unfold startSwitchingToOffline startSwitchingToOfflineCalls
  apply Acts.ite
  · intro _
    exact .refl s
  · intro hstart
    have hs : s.activity = .none := not_ne_iff.mp fun h => hstart (.inr h)
    have hstarted : Acts s (s.startCall .switchingToOffline) uploads
        (s.startActivity .switchingToOffline) := .start hs (by decide) (by decide)
    exact hstarted.trans (sendUnoSave_acts session.id false "")
      (.inl (noSync_startCall s (by decide)))

theorem startSwitchingToOnline_acts :
    Acts s s.startSwitchingToOnlineCalls uploads (s.startActivity .switchingToOnline) := by
  unfold startSwitchingToOnlineCalls
  by_cases hs : s.activity = .none
  · rw [if_neg (not_not_intro hs)]
    exact .start hs (by decide) (by decide)
  · rw [if_pos hs, startActivity_of_ne hs]
    exact .refl s

/-! ## Sessions that come and go -/

theorem removeSession_acts (session : Session) :
    Acts s (s.removeSessionCalls session) uploads (s.removeSession session) := by
  unfold removeSession removeSessionCalls
  dsimp only
  have hobserved : Acts s [] uploads (s.storing fun t =>
      t.observe (.sessionLeft (s.removal session))) := .storing _ rfl
  apply hobserved.after
  generalize (s.storing fun t => t.observe (.sessionLeft (s.removal session))) = t
  have hremoved : Acts t
      (if (!t.isLastEditable session) = true then []
        else if t.saveManager.isSaving = true then []
        else t.autoSaveCalls (t.config.alwaysSaveOnExit || t.isPossiblyModified)) uploads
      (if (!t.isLastEditable session) = true then t.disconnectSessionInternal session .removed
        else if t.saveManager.isSaving = true then t
        else if (t.autoSave (t.config.alwaysSaveOnExit || t.isPossiblyModified)).2 = true then
          (t.autoSave (t.config.alwaysSaveOnExit || t.isPossiblyModified)).1
        else (t.autoSave (t.config.alwaysSaveOnExit ||
          t.isPossiblyModified)).1.disconnectSessionInternal session .removed) := by
    apply Acts.ite
    · intro _
      exact disconnectSessionInternal_acts session _
    intro _
    apply Acts.ite
    · intro _
      exact .refl t
    intro _
    exact (autoSave_acts _).before (acts_ite (.refl _) (disconnectSessionInternal_acts session _))
  generalize (if (!t.isLastEditable session) = true then t.disconnectSessionInternal session .removed
    else if t.saveManager.isSaving = true then t
    else if (t.autoSave (t.config.alwaysSaveOnExit || t.isPossiblyModified)).2 = true then
      (t.autoSave (t.config.alwaysSaveOnExit || t.isPossiblyModified)).1
    else (t.autoSave (t.config.alwaysSaveOnExit ||
      t.isPossiblyModified)).1.disconnectSessionInternal session .removed) = removed at hremoved
  apply hremoved.before
  apply acts_ite
  · apply acts_ite
    · exact .of_same rfl rfl rfl rfl id
    · exact acts_ite markToDestroy_acts (.refl _)
  · exact .refl _

theorem addSession_acts (session : Session) (time : String) (size : Nat) :
    Acts s [] uploads (s.addSession session time size) := by
  unfold addSession
  dsimp only
  apply acts_ite (.refl s)
  have hjoined : Acts s [] uploads ({ s with
      docState := { s.docState with unloadRequested := false } }.storing fun t =>
        t.sessionJoins time size) := .of_same rfl rfl rfl rfl id
  apply hjoined.after
  generalize ({ s with docState := { s.docState with unloadRequested := false } }.storing fun t =>
    t.sessionJoins time size) = t
  split
  · apply Acts.after handleDocumentConflict_acts
    exact .of_same rfl rfl rfl rfl id
  · exact .of_same rfl rfl rfl rfl id

theorem addSessionFailed_acts : Acts s [] uploads s.addSessionFailed := by
  unfold addSessionFailed
  dsimp only
  apply acts_ite (.refl s)
  apply acts_ite
  · exact .of_same rfl rfl rfl rfl fun _ => rfl
  · exact .of_same rfl rfl rfl rfl id

theorem closeDocument_acts (reason : String) : Acts s [] uploads (s.closeDocument reason) := by
  unfold closeDocument
  dsimp only
  apply acts_ite
  · exact .of_same rfl rfl rfl rfl id
  · exact .of_same rfl rfl rfl rfl id

theorem disconnectedFromKit_acts (unexpected : Bool) :
    Acts s [] uploads (s.disconnectedFromKit unexpected) := by
  unfold disconnectedFromKit
  dsimp only
  have hlost : Acts s [] uploads { s with
      docState :=
        { s.docState with kitDisconnected := if unexpected then .unexpected else .normal } } :=
    .of_same rfl rfl rfl rfl id
  exact hlost.after (acts_ite (closeDocument_acts _) (.refl _))

/-! ## Polling -/

theorem autoStop_acts (reason : String) : Acts s [] uploads (s.autoStop reason) :=
  .of_same rfl rfl rfl rfl id

theorem uploadOrStop_acts (reason : String) :
    Acts s s.uploadOrStopCalls true (s.uploadOrStop reason) := by
  unfold uploadOrStop uploadOrStopCalls
  cases getWriteableSession s.sessions with
  | none => exact autoStop_acts reason
  | some session =>
      apply Acts.ite
      · intro _
        exact autoStop_acts reason
      · intro _
        exact (checkAndUploadToStorage_acts session false).of_le fun _ => rfl

theorem autoSaveAndStop_acts (reason : String) :
    Acts s s.autoSaveAndStopCalls true (s.autoSaveAndStop reason) := by
  unfold autoSaveAndStop autoSaveAndStopCalls
  dsimp only
  apply Acts.ite
  · intro _
    exact .refl s
  intro _
  apply Acts.ite
  · intro _
    exact autoStop_acts reason
  intro _
  apply Acts.ite
  · intro _
    exact .refl s
  intro _
  apply Acts.ite
  · intro _
    exact autoStop_acts reason
  intro _
  apply Acts.ite
  · intro _
    have hsaved : Acts s _ true _ :=
      autoSave_acts (s.isPossiblyModified || !s.saveManager.lastSaveSuccessful)
    refine hsaved.trans ?_ (.inl (noSync_autoSaveCalls _))
    exact .ite (fun _ => .refl _) fun _ => uploadOrStop_acts reason
  · intro _
    exact .refl s

theorem retryUpload_acts : Acts s s.retryUploadCalls true s.retryUpload := by
  unfold retryUpload retryUploadCalls
  cases getWriteableSession s.sessions with
  | none => exact .refl s
  | some session =>
      apply Acts.ite
      · intro _
        exact .refl s
      · intro _
        exact (checkAndUploadToStorage_acts session false).of_le fun _ => rfl

theorem awaitMigration_acts (timeout : Nat) : Acts s [] uploads (s.awaitMigration timeout) := by
  unfold awaitMigration
  split
  · exact .of_same rfl rfl rfl rfl id
  · apply acts_ite
    · exact .of_same rfl rfl rfl rfl id
    · exact .refl s

theorem resetUploadRequest_acts : Acts s [] uploads (s.storing Storing.resetUploadRequest) := by
  apply Acts.storing
  unfold Storing.resetUploadRequest
  split <;> rfl

/-- The iteration of `pollThread` first resets a `CheckFileInfo` that is over. -/
theorem pollIdle_acts : Acts { s with checkFileInfo := none } s.pollIdleCalls true s.pollIdle := by
  unfold pollIdle pollIdleCalls
  dsimp only
  apply (resetUploadRequest_acts).after
  generalize ({ s with checkFileInfo := none }.storing Storing.resetUploadRequest) = t
  apply Acts.ite
  · intro _
    exact startRenameFileCommand_acts
  intro _
  apply Acts.ite
  · intro _
    exact autoSaveAndStop_acts "idle"
  intro _
  apply Acts.ite
  · intro _
    apply Acts.ite
    · intro _
      exact (stop_acts "dead").after (autoSaveAndStop_acts "dead")
    intro _
    apply Acts.ite
    · intro _
      exact .refl t
    · intro _
      exact autoSaveAndStop_acts "dead"
  intro _
  apply Acts.ite
  · intro _
    exact awaitMigration_acts _
  intro _
  apply Acts.ite
  · intro _
    apply Acts.ite
    · intro _
      exact stop_acts _
    · intro _
      exact autoSaveAndStop_acts _
  intro _
  apply Acts.ite
  · intro _
    exact autoSave_acts false
  intro _
  apply Acts.ite
  · intro _
    exact retryUpload_acts
  · intro _
    exact .refl t

end DocumentBroker

end CoolOnline.Broker
