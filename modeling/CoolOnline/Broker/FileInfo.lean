import CoolOnline.Broker.UploadedMark

/-! # Versions and timestamps of the host

Which timestamps of the host belong to a version this broker has loaded or stored, and what a
`CheckFileInfo` report after a failed upload is taken for.
-/

namespace CoolOnline.Broker

/-! ## Timestamps and sizes in a history -/

namespace Obs

/-- The timestamp of a version the broker has loaded, stored, or adopted as its own. -/
def ownTime? : Obs → Option String
  | .documentLoaded _ time _ => some time
  | .uploadFinished _ .putFile _ .ok time => some time
  | .fileInfoReported r => if r.adopted then some r.time else none
  | _ => none

/-- The size of the version the host holds: as downloaded, or as uploaded successfully. -/
def heldSize? : Obs → Option Nat
  | .documentLoaded _ _ size => some size
  | .uploadFinished _ .putFile file .ok _ => some file.size
  | _ => none

def attempt? : Obs → Option UploadAttempt
  | .uploadAttempted attempt => some attempt
  | _ => none

end Obs

def ownTimes (hist : List Obs) : List String := hist.filterMap Obs.ownTime?

def lastAttempt? (hist : List Obs) : Option UploadAttempt := hist.findSome? Obs.attempt?

theorem head?_of_attempt {hist : List Obs} {attempt : UploadAttempt}
    (h : hist.head?.bind Obs.attempt? = some attempt) :
    ∃ older, hist = .uploadAttempted attempt :: older := by
  obtain ⟨o, hhead, ho⟩ := Option.bind_eq_some_iff.mp h
  obtain ⟨older, hhist⟩ := List.head?_eq_some_iff.mp hhead
  cases o with
  | uploadAttempted a =>
      cases ho
      exact ⟨older, hhist⟩
  | _ => cases ho

/-- The size the host held before. -/
def HeldSize (hist : List Obs) (size : Nat) : Prop := hist.findSome? Obs.heldSize? = some size

/-- The size of the file of the last upload attempt. -/
def TriedSize (hist : List Obs) (size : Nat) : Prop :=
  ∃ attempt file, lastAttempt? hist = some attempt ∧ attempt.file = some file ∧ file.size = size

/-- What `setSizeAsUploaded` has been given: the size that was sent, or 0. -/
def sizeSent (hist : List Obs) : Nat :=
  match lastAttempt? hist with
  | some attempt => if attempt.isSent then (attempt.file.map File.size).getD 0 else 0
  | none => 0

/-- Neither the version that the broker tried to upload nor the one that the host held before:
the report is not adopted, and the document is in conflict. And an unforced PutFile carries a
timestamp of an own version, if any. -/
def KeepsForeignVersions : Obs → List Obs → Prop
  | .fileInfoReported r, older =>
      ¬ TriedSize older r.size → ¬ HeldSize older r.size →
        r.adopted = false ∧ r.after = r.before ∧ r.conflict = true
  | .uploadAttempted attempt, older =>
      attempt.kind = .putFile → attempt.attrs.forced = false →
        ∀ time, attempt.timestamp = some time → time ∈ ownTimes older
  | _, _ => True

/-- A report of size 0 comes only after an upload that was sent; and the sessions that join and
the responses to save-as and rename report timestamps of own versions. -/
def reportsOwnVersions : Obs → List Obs → Bool
  | .fileInfoReported r, older => r.size != 0 || (lastAttempt? older).any UploadAttempt.isSent
  | .sessionJoined time _, older => time == "" || (ownTimes older).contains time
  | .uploadFinished _ kind _ result time, older =>
      kind == .putFile || result != .ok || time == "" || (ownTimes older).contains time
  | _, _ => true

/-- What the broker knows of the versions of the host. -/
structure VersionInv (s : Storing) : Prop where
  sizeOnServer : s.storageManager.sizeOnServer = 0
  sizeAsUploaded : s.storageManager.sizeAsUploaded = sizeSent s.hist
  sent : ∀ attempt, lastAttempt? s.hist = some attempt → attempt.isSent = true →
    attempt.file.isSome = true
  modifiedTime : s.storage.modifiedTime = "" ∨ s.storage.modifiedTime ∈ ownTimes s.hist

namespace VersionInv

variable {s s' : Storing}

theorem frame (hi : VersionInv s)
    (hos : s'.storageManager.sizeOnServer = s.storageManager.sizeOnServer)
    (hau : s'.storageManager.sizeAsUploaded = s.storageManager.sizeAsUploaded)
    (hm : s'.storage.modifiedTime = s.storage.modifiedTime)
    (ha : lastAttempt? s'.hist = lastAttempt? s.hist)
    (ht : ownTimes s'.hist = ownTimes s.hist) : VersionInv s' := by
  obtain ⟨h1, h2, h3, h4⟩ := hi
  have hsize : sizeSent s'.hist = sizeSent s.hist := by simp only [sizeSent, ha]
  rw [← hos] at h1
  rw [← hau, ← hsize] at h2
  rw [← ha] at h3
  rw [← hm, ← ht] at h4
  exact ⟨h1, h2, h3, h4⟩

/-- The size the broker knows of is one it has tried to upload. -/
theorem triedSize (hi : VersionInv s) {size : Nat} (h : s.isOwnVersion size = true)
    (hsent : size ≠ 0 ∨ (lastAttempt? s.hist).any UploadAttempt.isSent = true) :
    TriedSize s.hist size := by
  have hsize : sizeSent s.hist = size := by
    rw [← hi.sizeAsUploaded]
    simpa [Storing.isOwnVersion, hi.sizeOnServer] using h
  unfold sizeSent at hsize
  cases ha : lastAttempt? s.hist with
  | none =>
      rw [ha] at hsize hsent
      rcases hsent with hne | hs
      · exact absurd hsize.symm hne
      · cases hs
  | some attempt =>
      rw [ha] at hsize hsent
      have hs : attempt.isSent = true := by
        rcases hsent with hne | hs
        · by_contra hn
          rw [Bool.not_eq_true] at hn
          simp only [hn] at hsize
          exact hne hsize.symm
        · exact hs
      obtain ⟨file, hf⟩ := Option.isSome_iff_exists.mp (hi.sent attempt ha hs)
      refine ⟨attempt, file, ha, hf, ?_⟩
      simpa [hs, hf] using hsize

theorem attemptUpload (hi : VersionInv s) (request : UploadRequest) (kind : UploadKind)
    (file : Option File) (start : UploadStart) (unloading force : Bool) :
    VersionInv (s.attemptUpload request kind file start unloading force) := by
  obtain ⟨attempt, ha⟩ := s.attemptUpload_spec request kind file start unloading force
  generalize s.attemptUpload request kind file start unloading force = s' at *
  have hhist : lastAttempt? s'.hist = some attempt ∧ ownTimes s'.hist = ownTimes s.hist := by
    rcases ha.started with ⟨f, -, -, -, -, hhist⟩ | ⟨-, -, -, hhist⟩ <;>
    · rw [hhist]
      exact ⟨rfl, rfl⟩
  refine ⟨ha.sizeOnServer.trans hi.sizeOnServer, ?_, ?_, ?_⟩
  · rw [ha.sizeAsUploaded, sizeSent, hhist.1, ← ha.file_eq]
  · intro attempt' h' hs
    rw [hhist.1] at h'
    cases h'
    rw [ha.file_eq]
    exact ha.file_of_sent hs
  · rw [ha.modifiedTime, hhist.2]
    exact hi.modifiedTime

theorem completeUpload_sizes (result : UploadResult) :
    (s.completeUpload result).storageManager.sizeOnServer = s.storageManager.sizeOnServer ∧
      (s.completeUpload result).storageManager.sizeAsUploaded =
        s.storageManager.sizeAsUploaded := by
  unfold Storing.completeUpload
  split
  · exact ⟨rfl, rfl⟩
  · split
    · split <;> exact ⟨rfl, rfl⟩
    · split <;> exact ⟨rfl, rfl⟩

theorem completeUpload (hi : VersionInv s) (result : UploadResult) :
    VersionInv (s.completeUpload result) :=
  hi.frame (completeUpload_sizes result).1 (completeUpload_sizes result).2
    (congrArg WopiStorage.modifiedTime (UploadInv.completeUpload_storage result))
    (congrArg lastAttempt? (Storing.completeUpload_hist s result))
    (congrArg ownTimes (Storing.completeUpload_hist s result))

theorem finishUpload (hi : VersionInv s) (upload : UploadSession) (reply : UploadReply)
    (hC : Along (fun o older => reportsOwnVersions o older) (s.finishUpload upload reply).hist) :
    VersionInv (s.finishUpload upload reply) := by
  refine ⟨hi.sizeOnServer, hi.sizeAsUploaded, hi.sent, ?_⟩
  have hhist : (s.finishUpload upload reply).hist =
      .uploadFinished upload.attempt upload.kind upload.file reply.result
        (s.finishUpload upload reply).storage.modifiedTime :: s.hist := rfl
  rw [hhist] at hC ⊢
  have hcond := hC.1
  cases hres : reply.result with
  | ok =>
      rw [hres] at hcond
      generalize (s.finishUpload upload reply).storage.modifiedTime = time at hcond ⊢
      cases hk : upload.kind with
      | putFile => exact .inr List.mem_cons_self
      | putRelative | renameFile =>
          rw [hk] at hcond
          simpa [reportsOwnVersions, ownTimes, Obs.ownTime?] using hcond
  | _ =>
      have htime : (s.finishUpload upload reply).storage.modifiedTime = s.storage.modifiedTime := by
        rw [Storing.finishUpload, hres]
      rw [htime]
      rcases hi.modifiedTime with h | h
      · exact .inl h
      · refine .inr ?_
        cases hk : upload.kind <;> exact h

theorem fileInfoReported (hi : VersionInv s) (time : String) (size : Nat) :
    VersionInv (s.fileInfoReported time size) := by
  refine ⟨hi.sizeOnServer, hi.sizeAsUploaded, hi.sent, ?_⟩
  unfold Storing.fileInfoReported Storing.fileInfoReport
  cases s.isOwnVersion size with
  | true => exact .inr List.mem_cons_self
  | false => exact hi.modifiedTime

theorem sessionJoins (hi : VersionInv s) (time : String) (size : Nat)
    (hC : Along (fun o older => reportsOwnVersions o older) (s.sessionJoins time size).hist) :
    VersionInv (s.sessionJoins time size) := by
  refine ⟨hi.sizeOnServer, hi.sizeAsUploaded, hi.sent, ?_⟩
  have hcond : time = "" ∨ time ∈ ownTimes s.hist := by
    simpa [reportsOwnVersions] using hC.1
  exact hcond

theorem change (h : Change s s')
    (hC : Along (fun o older => reportsOwnVersions o older) s'.hist) (hi : VersionInv s) :
    VersionInv s' := by
  cases h with
  | kitFinishes id answer wasModified file =>
      unfold Storing.kitFinishes
      split <;> exact hi.frame rfl rfl rfl rfl rfl
  | attemptUpload request kind file start unloading force =>
      exact hi.attemptUpload request kind file start unloading force
  | finishUpload upload reply =>
      rw [Storing.completeUpload_hist] at hC
      exact (hi.finishUpload upload reply hC).completeUpload _
  | loseUpload =>
      unfold Storing.loseUpload
      split <;> exact hi.frame rfl rfl rfl rfl rfl
  | failLate =>
      have hr : VersionInv s.retireUpload := hi.frame rfl rfl rfl rfl rfl
      exact hr.completeUpload _
  | resetUploadRequest =>
      unfold Storing.resetUploadRequest
      split
      · exact hi.frame rfl rfl rfl rfl rfl
      · exact hi
  | fileInfoReported time size => exact hi.fileInfoReported time size
  | setLastModifiedTimeUnSafe => exact ⟨hi.sizeOnServer, hi.sizeAsUploaded, hi.sent, .inl rfl⟩
  | sessionJoins time size => exact hi.sessionJoins time size hC
  | _ => exact hi.frame rfl rfl rfl rfl rfl

end VersionInv

/-- What a report and a PutFile need holds where they are made. -/
theorem Change.keepsForeignVersions {s s' : Storing} (h : Change s s')
    (hC : Along (fun o older => reportsOwnVersions o older) s'.hist) (hi : VersionInv s)
    (hs : Along KeepsForeignVersions s.hist) : Along KeepsForeignVersions s'.hist := by
  refine h.along_attempts (fun o _ ho => by cases o <;> trivial) ?_ ?_ hs
  · intro attempt _ ⟨_, _, _, _, _, ha⟩ _ _ time htime
    rw [ha.timestamp] at htime
    split at htime
    · rename_i hc
      cases htime
      exact hi.modifiedTime.resolve_left hc.2.2
    · cases htime
  · intro time size hhist htried hheld
    rw [← hhist] at hC
    have hsent : size ≠ 0 ∨ (lastAttempt? s.hist).any UploadAttempt.isSent = true := by
      simpa [reportsOwnVersions, Storing.fileInfoReport] using hC.1
    have hown : s.isOwnVersion size = false := by
      by_contra hown
      exact htried (hi.triedSize (Bool.not_eq_false _ ▸ hown) hsent)
    simp [Storing.fileInfoReport, hown]

theorem Loaded.versionInv {s : DocumentBroker} (h : Loaded s) : VersionInv s.toStoring := by
  obtain ⟨size, hhist⟩ := h.hist
  refine ⟨h.sizeOnServer, ?_, ?_, ?_⟩
  · rw [h.sizeAsUploaded, hhist]
    rfl
  · intro attempt ha
    rw [hhist] at ha
    cases ha
  · rw [hhist]
    exact .inr List.mem_cons_self

/-- A foreign version is neither adopted nor overwritten with its own timestamp, in every run
in which the reports that the broker does not check are about its own versions. -/
theorem foreign_versions_kept {s s' : DocumentBroker} {es : List (Nat × Event)}
    (hload : Loaded s) (hrun : run DocumentBroker.step s es = some s')
    (hC : Along (fun o older => reportsOwnVersions o older) s'.hist) :
    Along KeepsForeignVersions s'.hist := by
  have hi : VersionInv s'.toStoring ∧ Along KeepsForeignVersions s'.hist := by
    refine run_holds (I := fun x => VersionInv x ∧ Along KeepsForeignVersions x.hist)
      (C := fun o older => reportsOwnVersions o older) ?_ hload hrun hC ⟨hload.versionInv, ?_⟩
    · intro x y h hC hi
      exact ⟨hi.1.change h hC, h.keepsForeignVersions hC hi.1 hi.2⟩
    · obtain ⟨size, hhist⟩ := hload.hist
      rw [hhist]
      exact ⟨trivial, trivial⟩
  exact hi.2

/-- An upload fails, and the host reports `size` at `time`. -/
def uploadFailed (time : String) (size : Nat) : List (Nat × Event) :=
  [(21, .uploadReply ⟨500, none⟩ false), (22, .poll true), (23, .fileInfo time size)]

/-- A foreign version of another size is a conflict. -/
theorem foreign_versions_kept_conflict : ∃ s', run DocumentBroker.step editedDocument
      (savedOnce ++ uploadFailed "t9" 77) = some s' ∧ s'.documentChangedInStorage = true ∧
    Along KeepsForeignVersions s'.hist := by
  obtain ⟨s', hrun, hC, hconflict⟩ := run_reaches DocumentBroker.step editedDocument
    (savedOnce ++ uploadFailed "t9" 77)
    (P := fun s => Along (fun o older => reportsOwnVersions o older) s.hist ∧
      s.documentChangedInStorage = true) (by decide +kernel)
  exact ⟨s', hrun, hconflict,
    foreign_versions_kept (DocumentBroker.load_loaded _ _ _ _ _) hrun hC⟩

/-- A session that joins during an upload brings the timestamp of a foreign version; when the
upload has failed, it is tried again with that timestamp, although the document is in conflict. -/
theorem foreign_version_overwritten : ¬ ∀ (s s' : DocumentBroker) (es : List (Nat × Event)),
    Loaded s → run DocumentBroker.step s es = some s' → Along KeepsForeignVersions s'.hist := by
  intro h
  obtain ⟨s', hrun, hput, hown⟩ := run_reaches DocumentBroker.step editedDocument
    (savedOnce ++ (15, .join (.editor 2) "t9" 77) :: uploadFailed "t9" 77 ++
      [(7000000000, .poll true)])
    (P := fun s => (s.hist.head?.bind Obs.attempt?).any (fun attempt => attempt.kind = .putFile ∧
        attempt.attrs.forced = false ∧ attempt.timestamp = some "t9") = true ∧
      "t9" ∉ ownTimes s.hist.tail) (by decide +kernel)
  have hs := h _ _ _ (DocumentBroker.load_loaded _ _ _ _ _) hrun
  obtain ⟨attempt, hat, hsent⟩ := (Option.any_eq_true _ _).mp hput
  obtain ⟨older, hhist⟩ := head?_of_attempt hat
  rw [hhist] at hs hown
  obtain ⟨hk, hf, ht⟩ := of_decide_eq_true hsent
  exact hown (hs.1 hk hf _ ht)

end CoolOnline.Broker
