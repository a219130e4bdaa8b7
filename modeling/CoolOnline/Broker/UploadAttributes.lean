import CoolOnline.Broker.FileInfo
import CoolOnline.Broker.Stopping

/-! # The attributes of saves and uploads -/

namespace CoolOnline.Broker

/-! ## What a history owes to the next upload -/

namespace Obs

/-- The attributes that the save request `id` was sent with. -/
def requestAttrs? (id : Nat) : Obs → Option Attributes
  | .saveRequested id' attrs _ => if id' = id then some attrs else none
  | _ => none

/-- The attributes that the upload attempt `number` was made with. -/
def attemptAttrs? (number : Nat) : Obs → Option Attributes
  | .uploadAttempted attempt => if attempt.number = number then some attempt.attrs else none
  | _ => none

end Obs

def requestAttrs? (id : Nat) (hist : List Obs) : Option Attributes :=
  hist.findSome? (Obs.requestAttrs? id)

def attemptAttrs? (number : Nat) (hist : List Obs) : Option Attributes :=
  hist.findSome? (Obs.attemptAttrs? number)

theorem requestAttrs?_requested (id : Nat) (attrs : Attributes) (overlaps : Bool)
    (older : List Obs) :
    requestAttrs? id (.saveRequested id attrs overlaps :: older) = some attrs := by
  simp [requestAttrs?, Obs.requestAttrs?]

theorem attemptAttrs?_attempted (attempt : UploadAttempt) (older : List Obs) :
    attemptAttrs? attempt.number (.uploadAttempted attempt :: older) = some attempt.attrs := by
  simp [attemptAttrs?, Obs.attemptAttrs?]

/-- What an answered save has recorded: the attributes of its request, with the modified flag
that the answer brings. -/
def savedAttrs (attrs : Attributes) : Option Bool → Attributes
  | none => attrs
  | some modified => { attrs with isUserModified := modified }

/-- What has been recorded for saves and forced uploads since the last upload attempt in
`accepted`, or since the last one that the host has accepted as a PutFile. -/
def owedSince (accepted : List Nat) : List Obs → Attributes
  | [] => .empty
  | .uploadFinished number .putFile _ .ok _ :: older => owedSince (number :: accepted) older
  | .uploadAttempted attempt :: older =>
      if attempt.number ∈ accepted then .empty
      else (owedSince accepted older).merge { Attributes.empty with forced := attempt.forced }
  | .saveAnswered id _ wasModified _ :: older =>
      (owedSince accepted older).merge
        (savedAttrs ((requestAttrs? id older).getD .empty) wasModified).recorded
  | _ :: older => owedSince accepted older

/-- What has been recorded for saves since the last successful PutFile. -/
def owed (hist : List Obs) : Attributes := owedSince [] hist

/-- A PutFile carries all that has been recorded since the last successful one. -/
def CarriesOwed : Obs → List Obs → Prop
  | .uploadAttempted attempt, older =>
      attempt.kind = .putFile → (owed older).ContainedIn attempt.attrs
  | _, _ => True

/-- What a save request still in flight was sent with has not been cleared. -/
def KeepsRequested (s : Storing) : Prop :=
  ∀ save ∈ s.pendingSaves, ∀ attrs, requestAttrs? save.id s.hist = some attrs →
    attrs.ContainedIn s.nextStorageAttrs

/-- No upload starts while a save is unanswered, none ends in the error state, a save-as or
rename that succeeds had nothing recorded, and extended data of a failed upload do not meet newer
ones. -/
def keepsAttributes : Obs → List Obs → Bool
  | .saveNotSent overlaps, _ => !overlaps
  | .uploadAttempted attempt, _ => !attempt.saving
  | .uploadErrored, _ => false
  | .uploadFinished number kind _ result _, older =>
      let sent := ((attemptAttrs? number older).getD .empty).recorded
      let newer := (owedSince [number] older).extendedData
      if result = .ok then kind == .putFile || sent == .empty
      else sent.extendedData == "" || newer == "" || sent.extendedData == newer
  | _, _ => true

/-- Where the attributes are that the next upload owes. -/
structure AttrsInv (s : Storing) : Prop where
  requested : ∀ save ∈ s.pendingSaves, requestAttrs? save.id s.hist = some s.nextStorageAttrs
  idle : s.storage.uploadHttpSession = none → s.currentStorageAttrs.recorded = owed s.hist
  uploading : ∀ u, s.storage.uploadHttpSession = some u →
    s.currentStorageAttrs.recorded = owedSince [u.attempt] s.hist ∧
      owed s.hist = s.lastStorageAttrs.recorded.merge (owedSince [u.attempt] s.hist) ∧
        attemptAttrs? u.attempt s.hist = some s.lastStorageAttrs

namespace AttrsInv

variable {s s' : Storing}

theorem frame (hi : AttrsInv s)
    (hp : ∀ save' ∈ s'.pendingSaves, ∃ save ∈ s.pendingSaves, save.id = save'.id)
    (hn : s'.nextStorageAttrs = s.nextStorageAttrs)
    (hc : s'.currentStorageAttrs = s.currentStorageAttrs)
    (hl : s'.lastStorageAttrs = s.lastStorageAttrs)
    (hh : s'.storage.uploadHttpSession = s.storage.uploadHttpSession)
    (hr : ∀ id, requestAttrs? id s'.hist = requestAttrs? id s.hist)
    (ha : ∀ number, attemptAttrs? number s'.hist = attemptAttrs? number s.hist)
    (ho : ∀ accepted, owedSince accepted s'.hist = owedSince accepted s.hist) : AttrsInv s' := by
  obtain ⟨h1, h2, h3⟩ := hi
  refine ⟨?_, ?_, ?_⟩
  · intro save' hs'
    obtain ⟨save, hs, hid⟩ := hp save' hs'
    rw [hr, hn, ← hid]
    exact h1 save hs
  · rw [hh, hc, owed, ho]
    exact h2
  · intro u hu
    rw [hc, hl, owed, ho, ho, ha]
    exact h3 u (hh ▸ hu)

/-- Nothing in flight is unanswered, as saves are asked for in turn. -/
theorem pendingSaves_nil (h : s.saveUnanswered = false) : s.pendingSaves = [] := by
  simpa [Storing.saveUnanswered] using h

theorem sendSave (hi : AttrsInv s) (userModified autosave : Bool) (extendedData : String)
    (hC : Along (fun o _ => storesInTurn o) (s.sendSave userModified autosave extendedData).hist) :
    AttrsInv (s.sendSave userModified autosave extendedData) := by
  have hnone : s.pendingSaves = [] := by
    have ho : (!s.saveUnanswered) = true := (Bool.and_eq_true_iff.mp hC.1).1
    exact pendingSaves_nil (by simpa using ho)
  refine ⟨?_, hi.idle, hi.uploading⟩
  intro save hs
  have hs' : save ∈ s.pendingSaves ++ [⟨s.hist.length, none⟩] := hs
  rw [hnone, List.nil_append, List.mem_singleton] at hs'
  rw [hs']
  exact requestAttrs?_requested _ _ _ _

theorem failToSend (hi : AttrsInv s) (userModified autosave : Bool) (extendedData : String)
    (hC : Along (fun o older => keepsAttributes o older)
      (s.failToSend userModified autosave extendedData).hist) :
    AttrsInv (s.failToSend userModified autosave extendedData) := by
  have hnone : s.pendingSaves = [] := by
    have ho : (!s.saveUnanswered) = true := hC.1
    exact pendingSaves_nil (by simpa using ho)
  refine ⟨?_, hi.idle, hi.uploading⟩
  intro save hs
  have hs' : save ∈ s.pendingSaves := hs
  rw [hnone] at hs'
  cases hs'

/-- The answer to the only save in flight moves what was recorded for it to the current
attributes. -/
theorem answerSave (hi : AttrsInv s) (hsave : SaveInv s) {id : Nat} {answer : SaveAnswer}
    {wasModified : Option Bool} {file : Option File}
    (h : ⟨id, some (answer, wasModified, file)⟩ ∈ s.pendingSaves) :
    AttrsInv (s.answerSave id answer wasModified file) := by
  have hattrs : (requestAttrs? id s.hist).getD .empty = s.nextStorageAttrs := by
    rw [hi.requested _ h]
    rfl
  have hcurrent : (s.answerSave id answer wasModified file).currentStorageAttrs =
      s.currentStorageAttrs.merge (savedAttrs s.nextStorageAttrs wasModified) := by
    cases wasModified <;> rfl
  have howed : ∀ accepted, owedSince accepted (s.answerSave id answer wasModified file).hist =
      (owedSince accepted s.hist).merge (savedAttrs s.nextStorageAttrs wasModified).recorded := by
    intro accepted
    rw [← hattrs]
    rfl
  refine ⟨?_, ?_, ?_⟩
  · intro save hs
    have hs' : save ∈ s.pendingSaves.filter fun save => save.id != id := hs
    obtain ⟨hmem, hne⟩ := List.mem_filter.mp hs'
    rcases hsave.pending with hp | ⟨only, hp, -⟩
    · rw [hp] at hmem
      cases hmem
    · rw [hp, List.mem_singleton] at hmem h
      rw [hmem, ← h] at hne
      simp at hne
  · intro hu
    rw [hcurrent, Attributes.recorded_merge, hi.idle hu]
    exact (howed _).symm
  · intro u hu
    obtain ⟨hc, ho, ha⟩ := hi.uploading u hu
    refine ⟨?_, ?_, ha⟩
    · rw [hcurrent, Attributes.recorded_merge, hc, howed]
    · rw [owed, howed, howed, ← Attributes.merge_assoc]
      exact congrArg (Attributes.merge · _) ho

/-- An upload takes the current attributes along. -/
theorem attemptUpload (hi : AttrsInv s) (request : UploadRequest) (kind : UploadKind)
    (file : Option File) (start : UploadStart) (unloading force : Bool)
    (hC : Along (fun o older => storesInTurn o && keepsAttributes o older)
      (s.attemptUpload request kind file start unloading force).hist) :
    AttrsInv (s.attemptUpload request kind file start unloading force) := by
  have hpend : (s.attemptUpload request kind file start unloading force).pendingSaves =
      s.pendingSaves := (UploadStep.attemptUpload request kind file start unloading force).4
  obtain ⟨attempt, ha⟩ := s.attemptUpload_spec request kind file start unloading force
  generalize s.attemptUpload request kind file start unloading force = s' at *
  rcases ha.started with ⟨f, hrun, -, hhttp, -, hhist⟩ | ⟨-, -, -, hhist⟩
  · rw [hhist] at hC
    obtain ⟨-, hkeeps⟩ := Bool.and_eq_true_iff.mp hC.1
    have hnone : s'.pendingSaves = [] := by
      rw [hpend]
      refine pendingSaves_nil ?_
      rw [← ha.saving]
      simpa [keepsAttributes] using hkeeps
    have hlast : s'.lastStorageAttrs.recorded =
        (owed s.hist).merge { Attributes.empty with forced := attempt.forced } := by
      rw [ha.lastStorageAttrs, ha.attrs, ha.forced, ← hi.idle (ha.idle (by rw [hrun]; decide))]
      cases force <;> simp [Attributes.recorded, Attributes.merge, Attributes.empty]
    have howed : owed s'.hist =
        (owed s.hist).merge { Attributes.empty with forced := attempt.forced } := by
      rw [hhist]
      rfl
    have hsince : owedSince [attempt.number] s'.hist = .empty := by
      rw [hhist]
      exact if_pos (List.mem_singleton_self _)
    refine ⟨?_, ?_, ?_⟩
    · intro save hsave
      rw [hnone] at hsave
      cases hsave
    · intro hidle
      rw [hhttp] at hidle
      cases hidle
    · intro u hu
      rw [hhttp] at hu
      cases hu
      refine ⟨?_, ?_, ?_⟩
      · rw [ha.currentStorageAttrs, hsince]
        rfl
      · rw [howed, hlast, hsince, Attributes.merge_empty]
      · rw [hhist, ha.lastStorageAttrs]
        exact attemptAttrs?_attempted attempt s.hist
  · rw [hhist] at hC
    have herr := hC.1
    simp [keepsAttributes] at herr

theorem completeUpload_ok_attrs {request : UploadRequest} (hr : s.uploadRequest = some request) :
    (s.completeUpload .ok).currentStorageAttrs = s.currentStorageAttrs ∧
      (s.completeUpload .ok).nextStorageAttrs = s.nextStorageAttrs := by
  unfold Storing.completeUpload
  simp only [hr, if_true]
  split <;> exact ⟨rfl, rfl⟩

theorem completeUpload_failed_attrs {request : UploadRequest}
    (hr : s.uploadRequest = some request) {result : UploadResult} (hres : result ≠ .ok) :
    (s.completeUpload result).currentStorageAttrs =
        s.currentStorageAttrs.merge s.lastStorageAttrs ∧
      (s.completeUpload result).nextStorageAttrs = s.nextStorageAttrs := by
  unfold Storing.completeUpload
  simp only [hr, hres, if_false]
  split <;> exact ⟨rfl, rfl⟩

/-- What is owed once the upload in flight has ended is in the current attributes. -/
theorem finishUpload (hi : AttrsInv s) (hup : UploadInv s) {upload : UploadSession}
    {reply : UploadReply} (hu : s.storage.uploadHttpSession = some upload)
    (hC : Along (fun o older => keepsAttributes o older) (s.finishUpload upload reply).hist) :
    AttrsInv ((s.finishUpload upload reply).completeUpload reply.result) := by
  obtain ⟨request, hreq, -⟩ := hup.inFlight upload hu
  have hreq' : (s.finishUpload upload reply).uploadRequest = some request := hreq
  obtain ⟨hcurrent, howed, hattempt⟩ := hi.uploading upload hu
  have hpend : ((s.finishUpload upload reply).completeUpload reply.result).pendingSaves =
      s.pendingSaves := ((UploadStep.finishUpload upload reply).completeUpload _).4
  have hhist : ((s.finishUpload upload reply).completeUpload reply.result).hist =
      (s.finishUpload upload reply).hist := Storing.completeUpload_hist _ _
  have hhttp : ((s.finishUpload upload reply).completeUpload
      reply.result).storage.uploadHttpSession = none := by
    rw [UploadInv.completeUpload_storage]
    rfl
  have hnext : ((s.finishUpload upload reply).completeUpload reply.result).nextStorageAttrs =
      s.nextStorageAttrs := by
    by_cases hok : reply.result = .ok
    · rw [hok]
      exact (completeUpload_ok_attrs hreq').2
    · exact (completeUpload_failed_attrs hreq' hok).2
  have hcond := hC.1
  refine ⟨?_, ?_, ?_⟩
  · rw [hpend, hhist, hnext]
    exact hi.requested
  · intro _
    rw [hhist]
    simp only [keepsAttributes, hattempt, Option.getD_some] at hcond
    by_cases hok : reply.result = .ok
    · have hc := (completeUpload_ok_attrs hreq').1
      rw [hok, hc]
      rw [if_pos hok] at hcond
      show s.currentStorageAttrs.recorded = owed (.uploadFinished upload.attempt upload.kind
        upload.file reply.result _ :: s.hist)
      rw [hcurrent, hok]
      cases hk : upload.kind with
      | putFile => rfl
      | putRelative | renameFile =>
          -- The upload that has taken them along was not a PutFile: there were none.
          have hbare : s.lastStorageAttrs.recorded = .empty := by
            rw [hk] at hcond
            simpa using hcond
          rw [hbare, Attributes.empty_merge] at howed
          exact howed.symm
    · rw [(completeUpload_failed_attrs hreq' hok).1, Attributes.recorded_merge]
      rw [if_neg hok] at hcond
      have hsame : owed (s.finishUpload upload reply).hist = owed s.hist := by
        show owed (.uploadFinished upload.attempt upload.kind upload.file reply.result _ ::
          s.hist) = owed s.hist
        cases hk : upload.kind <;> cases hr : reply.result <;>
          first | rfl | exact absurd hr hok
      rw [hsame, howed]
      show s.currentStorageAttrs.recorded.merge s.lastStorageAttrs.recorded = _
      rw [hcurrent]
      refine Attributes.merge_comm ?_
      have hext : s.lastStorageAttrs.recorded.extendedData = "" ∨
          (owedSince [upload.attempt] s.hist).extendedData = "" ∨
            s.lastStorageAttrs.recorded.extendedData =
              (owedSince [upload.attempt] s.hist).extendedData := by
        simpa [or_assoc] using hcond
      rcases hext with h | h | h
      · exact .inr (.inl h)
      · exact .inl h
      · exact .inr (.inr h.symm)
  · rw [hhttp]
    exact nofun

/-- Without an upload request there is no upload to retire. -/
theorem retireUpload (hi : AttrsInv s) (hup : UploadInv s) (h : s.uploadRequest = none) :
    AttrsInv s.retireUpload := by
  have hnone : s.storage.uploadHttpSession = none := by
    cases hu : s.storage.uploadHttpSession with
    | none => rfl
    | some u =>
        obtain ⟨r, hr, -⟩ := hup.inFlight u hu
        rw [h] at hr
        cases hr
  exact hi.frame (fun save hs => ⟨save, hs, rfl⟩) rfl rfl rfl hnone.symm (fun _ => rfl)
    (fun _ => rfl) fun _ => rfl

theorem change (h : Change s s')
    (hC : Along (fun o older => storesInTurn o && keepsAttributes o older) s'.hist)
    (hs : StoringInv s) (hi : AttrsInv s) : AttrsInv s' := by
  have hkeeps : Along (fun o older => keepsAttributes o older) s'.hist :=
    hC.imp fun _ _ ho => (Bool.and_eq_true_iff.mp ho).2
  have hturn : Along (fun o _ => storesInTurn o) s'.hist :=
    hC.imp fun _ _ ho => (Bool.and_eq_true_iff.mp ho).1
  cases h with
  | sendSave userModified autosave extendedData =>
      exact hi.sendSave userModified autosave extendedData hturn
  | failToSend userModified autosave extendedData =>
      exact hi.failToSend userModified autosave extendedData hkeeps
  | kitFinishes id answer wasModified file =>
      have hid : ∀ result, ∀ save' ∈ s.pendingSaves.map (PendingSave.finish id result),
          ∃ save ∈ s.pendingSaves, save.id = save'.id := by
        intro result save' hs'
        obtain ⟨save, hmem, rfl⟩ := List.mem_map.mp hs'
        refine ⟨save, hmem, ?_⟩
        unfold PendingSave.finish
        split <;> rfl
      unfold Storing.kitFinishes
      split
      · exact hi.frame (hid _) rfl rfl rfl rfl (fun _ => rfl) (fun _ => rfl) fun _ => rfl
      · exact hi.frame (hid _) rfl rfl rfl rfl (fun _ => rfl) (fun _ => rfl) fun _ => rfl
  | answerSave id answer wasModified file h => exact hi.answerSave hs.save h
  | attemptUpload request kind file start unloading force =>
      exact hi.attemptUpload request kind file start unloading force hC
  | finishUpload upload reply hu =>
      rw [Storing.completeUpload_hist] at hkeeps
      exact hi.finishUpload hs.upload hu hkeeps
  | loseUpload =>
      unfold Storing.loseUpload at hkeeps ⊢
      split at hkeeps
      · rename_i hnone
        rw [if_pos hnone]
        exact hi.retireUpload hs.upload (Option.isNone_iff_eq_none.mp hnone)
      · cases hkeeps.1
  | failLate herr =>
      rw [Storing.completeUpload_hist] at hkeeps
      have hnone : s.uploadRequest = none := by
        by_contra hsome
        obtain ⟨older, ho⟩ := hkeeps.of_mem (herr (Option.isSome_iff_ne_none.mpr hsome))
        cases ho
      have hsame : s.retireUpload.completeUpload .failed = s.retireUpload := by
        have hretired : s.retireUpload.uploadRequest = none := hnone
        simp only [Storing.completeUpload, hretired]
      rw [hsame]
      exact hi.retireUpload hs.upload hnone
  | resetUploadRequest =>
      unfold Storing.resetUploadRequest
      split
      · exact hi.frame (fun save hs => ⟨save, hs, rfl⟩) rfl rfl rfl rfl (fun _ => rfl)
          (fun _ => rfl) fun _ => rfl
      · exact hi
  | _ =>
      exact hi.frame (fun save hs => ⟨save, hs, rfl⟩) rfl rfl rfl rfl (fun _ => rfl)
        (fun _ => rfl) fun _ => rfl

end AttrsInv

theorem Loaded.attrsInv {s : DocumentBroker} (h : Loaded s) : AttrsInv s.toStoring := by
  obtain ⟨size, hhist⟩ := h.hist
  refine ⟨?_, ?_, ?_⟩
  · rw [h.pendingSaves]
    exact nofun
  · intro _
    rw [h.currentStorageAttrs, hhist]
    rfl
  · rw [h.uploadHttpSession]
    exact nofun

/-- A PutFile carries what is owed where it is attempted. -/
theorem Change.carriesOwed {s s' : Storing} (h : Change s s')
    (hC : Along (fun o _ => storesInTurn o) s'.hist) (hi : AttrsInv s)
    (hs : Along CarriesOwed s.hist) : Along CarriesOwed s'.hist := by
  refine h.along_attempts (fun o _ ho => by cases o <;> trivial) ?_
    (fun _ _ _ => trivial) hs
  intro attempt hnew ⟨_, _, _, _, force, ha⟩ _
  have hbusy : attempt.start ≠ .busy :=
    bne_iff_ne.mp (Bool.and_eq_true_iff.mp (hC.of_suffix hnew).1).2
  rw [← hi.idle (ha.idle hbusy), ha.attrs]
  refine ⟨⟨?_, id, id⟩, fun _ => rfl⟩
  intro hf
  show (force || s.currentStorageAttrs.forced) = true
  rw [show s.currentStorageAttrs.forced = true from hf, Bool.or_true]

/-- No attribute is lost in a run that saves and uploads in turn and keeps the attributes. -/
theorem attributes_kept {s s' : DocumentBroker} {es : List (Nat × Event)} (hload : Loaded s)
    (hrun : run DocumentBroker.step s es = some s')
    (hC : Along (fun o older => storesInTurn o && keepsAttributes o older) s'.hist) :
    Along CarriesOwed s'.hist ∧ KeepsRequested s'.toStoring := by
  have hi : StoringInv s'.toStoring ∧ AttrsInv s'.toStoring ∧ Along CarriesOwed s'.hist := by
    refine run_holds (I := fun x => StoringInv x ∧ AttrsInv x ∧ Along CarriesOwed x.hist)
      (C := fun o older => storesInTurn o && keepsAttributes o older) ?_ hload hrun hC
      ⟨hload.storingInv, hload.attrsInv, ?_⟩
    · intro x y h hC hi
      have hturn : Along (fun o _ => storesInTurn o) y.hist :=
        hC.imp fun _ _ ho => (Bool.and_eq_true_iff.mp ho).1
      exact ⟨hi.1.change h hturn, hi.2.1.change h hC hi.1, h.carriesOwed hturn hi.2.1 hi.2.2⟩
    · obtain ⟨size, hhist⟩ := hload.hist
      rw [hhist]
      exact ⟨trivial, trivial⟩
  refine ⟨hi.2.2, ?_⟩
  intro save hs attrs hattrs
  rw [hi.2.1.requested save hs] at hattrs
  cases hattrs
  exact ⟨.refl _, fun _ => rfl⟩

/-- A failed upload is tried again with its attributes. -/
theorem attributes_kept_retried : ∃ s', run DocumentBroker.step editedDocument
      (savedOnce ++ uploadFailed "t0" 10 ++ [(7000000000, .poll true)]) = some s' ∧
    s'.isAsyncUploading = true ∧ (owed s'.hist).isUserModified = true ∧
      Along CarriesOwed s'.hist ∧ KeepsRequested s'.toStoring := by
  obtain ⟨s', hrun, hC, hup, howed⟩ := run_reaches DocumentBroker.step editedDocument
    (savedOnce ++ uploadFailed "t0" 10 ++ [(7000000000, .poll true)])
    (P := fun s => Along (fun o older => storesInTurn o && keepsAttributes o older) s.hist ∧
      s.isAsyncUploading = true ∧ (owed s.hist).isUserModified = true) (by decide +kernel)
  exact ⟨s', hrun, hup, howed, attributes_kept (DocumentBroker.load_loaded _ _ _ _ _) hrun hC⟩

/-- The document of `editedDocument`, whose first upload cannot be connected. -/
def unconnectedDocument : DocumentBroker :=
  .load .standard ⟨100, 10, 0⟩ "t0" [.editor 1] [.connectFailed]

/-- The attributes of an upload that could not be connected are not sent again. -/
theorem attributes_lost_unconnected : ¬ ∀ (s s' : DocumentBroker) (es : List (Nat × Event)),
    Loaded s → run DocumentBroker.step s es = some s' →
      Along CarriesOwed s'.hist ∧ KeepsRequested s'.toStoring := by
  intro h
  obtain ⟨s', hrun, hput, howed⟩ := run_reaches DocumentBroker.step unconnectedDocument
    (savedOnce ++ [(7000000000, .poll true)])
    (P := fun s => (s.hist.head?.bind Obs.attempt?).any (fun attempt => attempt.kind = .putFile ∧
        attempt.attrs.isUserModified = false) = true ∧
      (owed s.hist.tail).isUserModified = true) (by decide +kernel)
  have hs := (h _ _ _ (DocumentBroker.load_loaded _ _ _ _ _) hrun).1
  obtain ⟨attempt, hat, hsent⟩ := (Option.any_eq_true _ _).mp hput
  obtain ⟨older, hhist⟩ := head?_of_attempt hat
  rw [hhist] at hs howed
  obtain ⟨hk, hnot⟩ := of_decide_eq_true hsent
  have hmod := (hs.1 hk).1.2.1 howed
  rw [hnot] at hmod
  cases hmod

end CoolOnline.Broker
