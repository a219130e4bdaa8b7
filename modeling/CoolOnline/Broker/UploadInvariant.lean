import CoolOnline.Broker.FileInvariant

/-! # Invariants of uploading -/

namespace CoolOnline.Broker

/-- No upload is attempted while another one is in flight. -/
def uploadsInTurn : Obs → Bool
  | .uploadAttempted attempt => attempt.start != .busy
  | _ => true

/-- What an upload attempt does, started or not. -/
structure Attempted (s s' : Storing) (request : UploadRequest) (kind : UploadKind)
    (file : Option File) (unloading force : Bool) (attempt : UploadAttempt) : Prop where
  number : attempt.number = s.hist.length
  kind_eq : attempt.kind = kind
  attrs : attempt.attrs = { s.currentStorageAttrs with
    isExitSave := unloading, forced := force || s.currentStorageAttrs.forced }
  forced : attempt.forced = force
  file_eq : attempt.file = file
  timestamp : attempt.timestamp = if kind = .putFile ∧ attempt.attrs.forced = false ∧
    s.storage.modifiedTime ≠ "" then some s.storage.modifiedTime else none
  waiting : attempt.waiting = s.currentStorageAttrs
  saving : attempt.saving = s.saveUnanswered
  lastStorageAttrs : s'.lastStorageAttrs = attempt.attrs
  currentStorageAttrs : s'.currentStorageAttrs = .empty
  nextStorageAttrs : s'.nextStorageAttrs = .empty
  lastUploaded : s'.storageManager.lastUploadedFileModifiedLocalTime =
    s.storageManager.lastUploadedFileModifiedLocalTime
  sizeOnServer : s'.storageManager.sizeOnServer = s.storageManager.sizeOnServer
  sizeAsUploaded : s'.storageManager.sizeAsUploaded =
    if attempt.isSent then (file.map File.size).getD 0 else 0
  file_of_sent : attempt.isSent = true → file.isSome = true
  modifiedTime : s'.storage.modifiedTime = s.storage.modifiedTime
  idle : attempt.start ≠ .busy → s.storage.uploadHttpSession = none
  started : (∃ f, attempt.start = .running ∧ file = some f ∧
      s'.storage.uploadHttpSession = some ⟨attempt.number, kind, f⟩ ∧
      s'.uploadRequest = some request ∧ s'.hist = .uploadAttempted attempt :: s.hist) ∨
    attempt.start ≠ .running ∧ s'.storage.uploadHttpSession = s.storage.uploadHttpSession ∧
      s'.uploadRequest = some { request with completed := true } ∧
        s'.hist = .uploadErrored :: .uploadAttempted attempt :: s.hist

/-- An upload that starts is the only one, and one that is sent has a file. -/
theorem Storing.uploadStart_spec (s : Storing) (file : Option File) (start : UploadStart) :
    (s.uploadStart file start ≠ .busy → s.storage.uploadHttpSession = none) ∧
      (s.uploadStart file start = .running ∨ s.uploadStart file start = .connectFailed →
        file.isSome = true) := by
  unfold Storing.uploadStart
  split
  · exact ⟨fun h => absurd rfl h, fun h => absurd h (by decide)⟩
  · rename_i hasync
    refine ⟨fun _ => by simpa [Storing.isAsyncUploading] using hasync, ?_⟩
    split
    · exact fun h => absurd h (by decide)
    · rename_i hsome
      intro _
      exact Option.isSome_iff_ne_none.mpr (by simpa using hsome)

theorem Storing.attemptUpload_spec (s : Storing) (request : UploadRequest) (kind : UploadKind)
    (file : Option File) (start : UploadStart) (unloading force : Bool) :
    ∃ attempt, Attempted s (s.attemptUpload request kind file start unloading force) request kind
      file unloading force attempt := by
  obtain ⟨hidle, hfile⟩ := (s.beginUpload request unloading force).uploadStart_spec file start
  have hattrs : (s.beginUpload request unloading force).lastStorageAttrs =
      { s.currentStorageAttrs with
        isExitSave := unloading, forced := force || s.currentStorageAttrs.forced } := by
    cases force <;> rfl
  generalize hstart : (s.beginUpload request unloading force).uploadStart file start = start' at *
  refine ⟨⟨s.hist.length, kind, (s.beginUpload request unloading force).lastStorageAttrs, force,
    file, (s.beginUpload request unloading force).timestampHeader kind, s.currentStorageAttrs,
    s.saveUnanswered, start'⟩, ?_⟩
  unfold Storing.attemptUpload Storing.startUpload
  rw [hstart]
  dsimp only
  cases start' with
  | running =>
      obtain ⟨f, rfl⟩ := Option.isSome_iff_exists.mp (hfile (.inl rfl))
      exact ⟨rfl, rfl, hattrs, rfl, rfl, rfl, rfl, rfl, rfl, rfl, rfl, rfl, rfl, rfl,
        fun _ => rfl, rfl, hidle, .inl ⟨f, rfl, rfl, rfl, rfl, rfl⟩⟩
  | busy | fileNotFound | internalError =>
      exact ⟨rfl, rfl, hattrs, rfl, rfl, rfl, rfl, rfl, rfl, rfl, rfl, rfl, rfl, rfl,
        nofun, rfl, hidle, .inr ⟨nofun, rfl, rfl, rfl⟩⟩
  | connectFailed =>
      exact ⟨rfl, rfl, hattrs, rfl, rfl, rfl, rfl, rfl, rfl, rfl, rfl, rfl, rfl, rfl,
        fun _ => hfile (.inr rfl), rfl, hidle, .inr ⟨nofun, rfl, rfl, rfl⟩⟩

/-- An upload attempt, or a report of what the host has after one failed. -/
def Obs.isAttempt : Obs → Bool
  | .uploadAttempted _ => true
  | .fileInfoReported _ => true
  | _ => false

/-- A property of attempts and reports holds along a history when it holds where they are
made. -/
theorem Change.along_attempts {P : Obs → List Obs → Prop} {s s' : Storing} (h : Change s s')
    (hother : ∀ o older, o.isAttempt = false → P o older)
    (hattempt : ∀ attempt, .uploadAttempted attempt :: s.hist <:+ s'.hist →
      (∃ request kind file unloading force,
        Attempted s s' request kind file unloading force attempt) →
      P (.uploadAttempted attempt) s.hist)
    (hreport : ∀ time size, .fileInfoReported (s.fileInfoReport time size) :: s.hist = s'.hist →
      P (.fileInfoReported (s.fileInfoReport time size)) s.hist)
    (hs : Along P s.hist) : Along P s'.hist := by
  cases h with
  | attemptUpload request kind file start unloading force =>
      obtain ⟨attempt, ha⟩ := s.attemptUpload_spec request kind file start unloading force
      have hat := hattempt attempt
      generalize s.attemptUpload request kind file start unloading force = s' at *
      rcases ha.started with ⟨f, -, -, -, -, hhist⟩ | ⟨-, -, -, hhist⟩
      · rw [hhist] at hat ⊢
        exact ⟨hat List.suffix_rfl ⟨_, _, _, _, _, ha⟩, hs⟩
      · rw [hhist] at hat ⊢
        exact ⟨hother _ _ rfl, hat (List.suffix_cons _ _) ⟨_, _, _, _, _, ha⟩, hs⟩
  | fileInfoReported time size => exact ⟨hreport time size rfl, hs⟩
  | finishUpload upload reply =>
      rw [Storing.completeUpload_hist]
      exact ⟨hother _ _ rfl, hs⟩
  | kitFinishes id answer wasModified file =>
      unfold Storing.kitFinishes
      split
      · exact ⟨hother _ _ rfl, hs⟩
      · exact hs
  | loseUpload =>
      unfold Storing.loseUpload
      split
      · exact hs
      · exact ⟨hother _ _ rfl, hs⟩
  | failLate =>
      rw [Storing.completeUpload_hist]
      exact hs
  | resetUploadRequest =>
      unfold Storing.resetUploadRequest
      split <;> exact hs
  | tick | setAutosaveCheck | conflict => exact hs
  | _ => exact ⟨hother _ _ rfl, hs⟩

/-- The upload in flight is the one of the upload request, and the file marked as uploaded is
the one loaded or one the host has accepted. -/
structure UploadInv (s : Storing) : Prop where
  inFlight : ∀ u, s.storage.uploadHttpSession = some u → ∃ r, s.uploadRequest = some r ∧
    r.completed = false ∧
      (r.isPlain = true → u.kind = .putFile ∧ r.newFileModifiedLocalTime = u.file.mtime)
  sending : ∀ u, s.storage.uploadHttpSession = some u → u.kind = .putFile →
    u.file ∈ writtenFiles s.hist ∧ ∃ g, s.files.uploading = some g ∧ u.file.mtime ≤ g.mtime
  lastUploaded :
    (∃ f ∈ loadedFiles s.hist,
      s.storageManager.lastUploadedFileModifiedLocalTime = f.mtime) ∨
    ∃ f ∈ acceptedFiles s.hist, s.storageManager.lastUploadedFileModifiedLocalTime = f.mtime
  accepted : ∀ f ∈ acceptedFiles s.hist,
    f ∈ writtenFiles s.hist ∧ ∃ g, s.files.uploading = some g ∧ f.mtime ≤ g.mtime

namespace UploadInv

variable {s s' : Storing}

theorem frame (hi : UploadInv s)
    (hh : s'.storage.uploadHttpSession = s.storage.uploadHttpSession)
    (hr : s'.uploadRequest = s.uploadRequest)
    (hl : s'.storageManager.lastUploadedFileModifiedLocalTime =
      s.storageManager.lastUploadedFileModifiedLocalTime)
    (hu : s'.files.uploading = s.files.uploading)
    (hw : writtenFiles s'.hist = writtenFiles s.hist)
    (hf : loadedFiles s'.hist = loadedFiles s.hist)
    (ha : acceptedFiles s'.hist = acceptedFiles s.hist) : UploadInv s' := by
  obtain ⟨h1, h2, h3, h4⟩ := hi
  rw [← hh, ← hr] at h1
  rw [← hh, ← hw, ← hu] at h2
  rw [← hl, ← hf, ← ha] at h3
  rw [← ha, ← hw, ← hu] at h4
  exact ⟨h1, h2, h3, h4⟩

/-- The file at `.uploading` is only ever replaced by a newer one. -/
theorem kitFinishes (hi : UploadInv s) (id : Nat) (answer : SaveAnswer)
    (wasModified : Option Bool) (file : File) :
    UploadInv (s.kitFinishes id answer wasModified file) := by
  unfold Storing.kitFinishes
  split
  · refine ⟨hi.inFlight, ?_, hi.lastUploaded, ?_⟩
    · intro u hu hk
      obtain ⟨hw, hg⟩ := hi.sending u hu hk
      exact ⟨List.mem_cons_of_mem file hw, hg⟩
    · intro f hf
      obtain ⟨hw, hg⟩ := hi.accepted f hf
      exact ⟨List.mem_cons_of_mem file hw, hg⟩
  · exact hi.frame rfl rfl rfl rfl rfl rfl rfl

theorem answerSave (hi : UploadInv s) (hf : FileInv s) (id : Nat) (answer : SaveAnswer)
    (wasModified : Option Bool) (file : Option File) :
    UploadInv (s.answerSave id answer wasModified file) := by
  have hfiles : (s.answerSave id answer wasModified file).files = s.files.renameForUpload := rfl
  rcases hf.renameForUpload with ⟨h, -⟩ | h
  · exact hi.frame rfl rfl rfl (congrArg Files.uploading (hfiles.trans h)) rfl rfl rfl
  · rw [h] at hfiles
    refine ⟨hi.inFlight, ?_, hi.lastUploaded, ?_⟩
    · intro u hu hk
      obtain ⟨hw, -⟩ := hi.sending u hu hk
      exact ⟨hw, s.files.root, by rw [hfiles], hf.le_root hw⟩
    · intro f hacc
      obtain ⟨hw, -⟩ := hi.accepted f hacc
      exact ⟨hw, s.files.root, by rw [hfiles], hf.le_root hw⟩

theorem completeUpload_storage (result : UploadResult) :
    (s.completeUpload result).storage = s.storage := by
  unfold Storing.completeUpload
  split
  · rfl
  · split
    · split <;> rfl
    · split <;> rfl

theorem completeUpload_failed_lastUploaded {result : UploadResult} (h : result ≠ .ok) :
    (s.completeUpload result).storageManager.lastUploadedFileModifiedLocalTime =
      s.storageManager.lastUploadedFileModifiedLocalTime := by
  unfold Storing.completeUpload
  split
  · rfl
  · rw [if_neg h]
    split <;> rfl

/-- An accepted upload marks its own file as uploaded. -/
theorem completeUpload_ok_lastUploaded {r : UploadRequest} (hr : s.uploadRequest = some r) :
    (s.completeUpload .ok).storageManager.lastUploadedFileModifiedLocalTime =
      if r.isPlain then r.newFileModifiedLocalTime
      else s.storageManager.lastUploadedFileModifiedLocalTime := by
  unfold Storing.completeUpload
  simp only [hr, if_true]
  split <;> rfl

/-- Without an upload in flight, what concerns one holds of any request. -/
theorem of_none (hi : UploadInv s) (h : UploadStep s s')
    (hnone : s'.storage.uploadHttpSession = none)
    (hl : s'.storageManager.lastUploadedFileModifiedLocalTime =
      s.storageManager.lastUploadedFileModifiedLocalTime)
    (ha : acceptedFiles s'.hist = acceptedFiles s.hist) : UploadInv s' := by
  refine ⟨?_, ?_, ?_, ?_⟩
  · intro u hu
    rw [hnone] at hu
    cases hu
  · intro u hu
    rw [hnone] at hu
    cases hu
  · rw [h.loadedFiles_eq, ha, hl]
    exact hi.lastUploaded
  · rw [ha, h.writtenFiles_eq, h.files]
    exact hi.accepted

theorem finishUpload (hi : UploadInv s) {upload : UploadSession} {reply : UploadReply}
    (hup : s.storage.uploadHttpSession = some upload) :
    UploadInv ((s.finishUpload upload reply).completeUpload reply.result) := by
  have hstep : UploadStep s ((s.finishUpload upload reply).completeUpload reply.result) :=
    (UploadStep.finishUpload upload reply).completeUpload _
  have hnone : ((s.finishUpload upload reply).completeUpload
      reply.result).storage.uploadHttpSession = none := by
    rw [completeUpload_storage]
    rfl
  have hhist : ((s.finishUpload upload reply).completeUpload reply.result).hist =
      (s.finishUpload upload reply).hist := Storing.completeUpload_hist _ _
  by_cases hput : upload.kind = .putFile ∧ reply.result = .ok
  · -- The host has accepted the file in flight.
    obtain ⟨r, hr, -, hplain⟩ := hi.inFlight upload hup
    obtain ⟨hw, hg⟩ := hi.sending upload hup hput.1
    have hacc : acceptedFiles (s.finishUpload upload reply).hist =
        upload.file :: acceptedFiles s.hist := by
      simp [acceptedFiles, Storing.finishUpload, Obs.acceptedFile?, hput.1, hput.2]
    have hmark := completeUpload_ok_lastUploaded (s := s.finishUpload upload reply) hr
    refine ⟨?_, ?_, ?_, ?_⟩
    · intro u hu
      rw [hnone] at hu
      cases hu
    · intro u hu
      rw [hnone] at hu
      cases hu
    · rw [hhist, hacc, hput.2, hmark]
      split
      · rename_i hp
        exact .inr ⟨upload.file, List.mem_cons_self, (hplain hp).2⟩
      · rcases hi.lastUploaded with h | ⟨f, hf, hm⟩
        · exact .inl h
        · exact .inr ⟨f, List.mem_cons_of_mem _ hf, hm⟩
    · rw [hhist, hacc, hstep.files]
      intro f hf
      rcases List.mem_cons.mp hf with rfl | hf
      · exact ⟨hw, hg⟩
      · exact hi.accepted f hf
  · refine hi.of_none hstep hnone ?_ ?_
    · by_cases hok : reply.result = .ok
      · obtain ⟨r, hr, -, hplain⟩ := hi.inFlight upload hup
        have hnp : r.isPlain ≠ true := fun hp => hput ⟨(hplain hp).1, hok⟩
        rw [hok, completeUpload_ok_lastUploaded (s := s.finishUpload upload reply) hr, if_neg hnp]
        rfl
      · rw [completeUpload_failed_lastUploaded hok]
        rfl
    · rw [hhist]
      have ho : ∀ time, Obs.acceptedFile? (.uploadFinished upload.attempt upload.kind upload.file
          reply.result time) = none := by
        intro time
        cases hk : upload.kind with
        | putFile =>
            cases hres : reply.result with
            | ok => exact absurd ⟨hk, hres⟩ hput
            | _ => rfl
        | _ => rfl
      simp [acceptedFiles, Storing.finishUpload, ho]

theorem attemptUpload (hi : UploadInv s) (hf : FileInv s) {request : UploadRequest}
    {kind : UploadKind} {file : Option File} {start : UploadStart} {unloading force : Bool}
    (h : s.IsUpload request kind file)
    (hC : Along (fun o _ => uploadsInTurn o)
      (s.attemptUpload request kind file start unloading force).hist) :
    UploadInv (s.attemptUpload request kind file start unloading force) := by
  have hstep : UploadStep s (s.attemptUpload request kind file start unloading force) :=
    UploadStep.attemptUpload request kind file start unloading force
  obtain ⟨attempt, ha⟩ := s.attemptUpload_spec request kind file start unloading force
  generalize s.attemptUpload request kind file start unloading force = s' at *
  rcases ha.started with ⟨f, -, hfile, hhttp, hreq, hhist⟩ | ⟨-, hhttp, -, hhist⟩
  · have hput : kind = .putFile → s.files.uploading = some f := by
      intro hk
      rw [← hfile]
      exact (h.file_eq (by rw [hk]; decide)).symm
    refine ⟨?_, ?_, ?_, ?_⟩
    · intro u hu
      rw [hhttp] at hu
      cases hu
      refine ⟨request, hreq, h.not_completed, ?_⟩
      intro hp
      have hk := h.kind_eq hp
      refine ⟨hk, ?_⟩
      rw [h.mtime, hput hk]
      rfl
    · intro u hu hk
      rw [hhttp] at hu
      cases hu
      rw [hstep.files, hhist]
      exact ⟨hf.uploading f (hput hk), f, hput hk, Nat.le_refl _⟩
    · rw [ha.lastUploaded, hhist]
      exact hi.lastUploaded
    · rw [hstep.files, hhist]
      exact hi.accepted
  · rw [hhist] at hC
    have hne : attempt.start ≠ .busy := bne_iff_ne.mp hC.2.1
    refine hi.of_none hstep (hhttp.trans (ha.idle hne)) ha.lastUploaded ?_
    rw [hhist]
    rfl

theorem loseUpload (hi : UploadInv s) : UploadInv s.loseUpload := by
  refine hi.of_none UploadStep.loseUpload ?_ ?_ ?_ <;>
  · unfold Storing.loseUpload
    split <;> rfl

theorem failLate (hi : UploadInv s) : UploadInv (s.retireUpload.completeUpload .failed) := by
  refine hi.of_none (UploadStep.retireUpload.completeUpload _) ?_ ?_ ?_
  · rw [completeUpload_storage]
    rfl
  · rw [completeUpload_failed_lastUploaded (by decide)]
    rfl
  · rw [Storing.completeUpload_hist]
    rfl

theorem resetUploadRequest (hi : UploadInv s) : UploadInv s.resetUploadRequest := by
  unfold Storing.resetUploadRequest
  split
  · rename_i hcomp
    refine ⟨?_, hi.sending, hi.lastUploaded, hi.accepted⟩
    intro u hu
    obtain ⟨r, hr, hnot, -⟩ := hi.inFlight u hu
    rw [hr, Option.any_some, hnot] at hcomp
    cases hcomp
  · exact hi

theorem change (h : Change s s') (hC : Along (fun o _ => uploadsInTurn o) s'.hist)
    (hf : FileInv s) (hi : UploadInv s) : UploadInv s' := by
  cases h with
  | kitFinishes id answer wasModified file => exact hi.kitFinishes id answer wasModified file
  | answerSave id answer wasModified file => exact hi.answerSave hf id answer wasModified file
  | attemptUpload request kind file start unloading force h => exact hi.attemptUpload hf h hC
  | finishUpload upload reply hup => exact hi.finishUpload hup
  | loseUpload => exact hi.loseUpload
  | failLate => exact hi.failLate
  | resetUploadRequest => exact hi.resetUploadRequest
  | _ => exact hi.frame rfl rfl rfl rfl rfl rfl rfl

/-- Once an upload has been accepted, the mark at the current file says that this file has been
accepted. -/
theorem uploaded (hi : UploadInv s) (hf : FileInv s) {g : File}
    (hg : s.files.uploading = some g)
    (hmark : s.storageManager.lastUploadedFileModifiedLocalTime = g.mtime)
    (hsome : acceptedFiles s.hist ≠ []) : g ∈ acceptedFiles s.hist := by
  have hgw := hf.uploading g hg
  rcases hi.lastUploaded with ⟨f, hload, hm⟩ | ⟨f, hacc, hm⟩
  · -- The mark is still the one of the loaded document, and nothing newer was accepted.
    obtain ⟨f', hf'⟩ := List.exists_mem_of_ne_nil _ hsome
    obtain ⟨hw', g', hg', hle'⟩ := hi.accepted f' hf'
    rw [hg] at hg'
    cases hg'
    have hle := (hf.loaded f hload).2 f' hw'
    have he : f' = g := hf.eq_of_mtime hw' hgw (by omega)
    rw [← he]
    exact hf'
  · have he : f = g := hf.eq_of_mtime (hi.accepted f hacc).1 hgw (hm.symm.trans hmark)
    rw [← he]
    exact hacc

end UploadInv

theorem Loaded.uploadInv {s : DocumentBroker} (h : Loaded s) : UploadInv s.toStoring := by
  obtain ⟨size, hhist⟩ := h.hist
  refine ⟨?_, ?_, ?_, ?_⟩
  · intro u hu
    rw [h.uploadHttpSession] at hu
    cases hu
  · intro u hu
    rw [h.uploadHttpSession] at hu
    cases hu
  · refine .inl ⟨s.files.root, ?_, h.lastUploaded⟩
    rw [hhist]
    exact List.mem_singleton_self _
  · intro f hf
    rw [hhist] at hf
    cases hf

end CoolOnline.Broker
