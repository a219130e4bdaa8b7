import CoolOnline.Broker.SaveInvariant

/-! # Invariants of the files on disk -/

namespace CoolOnline.Broker

/-- The document file is the newest one written, `.upload` is a copy of it, and `.uploading` is
one of those written. -/
structure FileInv (s : Storing) : Prop where
  root : ∃ rest, writtenFiles s.hist = s.files.root :: rest
  sorted : (writtenFiles s.hist).Pairwise fun f g => g.mtime < f.mtime
  loaded : ∀ f ∈ loadedFiles s.hist, f ∈ writtenFiles s.hist ∧
    ∀ g ∈ writtenFiles s.hist, f.mtime ≤ g.mtime
  fresh : ∀ f ∈ loadedFiles s.hist, ∀ g ∈ newFiles s.hist, f.mtime < g.mtime
  upload : s.files.upload = none ∨ s.files.upload = some s.files.root
  uploading : ∀ f, s.files.uploading = some f → f ∈ writtenFiles s.hist
  current : s.files.upload = none →
    s.files.uploading = none ∨ s.files.uploading = some s.files.root

namespace FileInv

variable {s s' : Storing}

theorem frame (hi : FileInv s) (hf : s'.files = s.files)
    (hw : writtenFiles s'.hist = writtenFiles s.hist)
    (hl : loadedFiles s'.hist = loadedFiles s.hist)
    (hn : newFiles s'.hist = newFiles s.hist) : FileInv s' := by
  obtain ⟨h1, h2, h3, h7, h4, h5, h6⟩ := hi
  rw [← hl, ← hn] at h7
  rw [← hf, ← hw] at h1
  rw [← hw] at h2
  rw [← hl, ← hw] at h3
  rw [← hf] at h4
  rw [← hf, ← hw] at h5
  rw [← hf] at h6
  exact ⟨h1, h2, h3, h7, h4, h5, h6⟩

/-- Files that were written are told apart by their modified times. -/
theorem eq_of_mtime (hi : FileInv s) {f g : File} (hf : f ∈ writtenFiles s.hist)
    (hg : g ∈ writtenFiles s.hist) (h : f.mtime = g.mtime) : f = g := by
  have hlt : (writtenFiles s.hist).Pairwise fun f g => f.mtime = g.mtime → f = g :=
    hi.sorted.imp fun hlt he => absurd he (Nat.ne_of_gt hlt)
  have hgt : (writtenFiles s.hist).Pairwise fun f g => g.mtime = f.mtime → g = f :=
    hi.sorted.imp fun hlt he => absurd he (Nat.ne_of_lt hlt)
  exact List.Pairwise.forall_of_forall_of_flip (fun _ _ _ => rfl) hlt hgt hf hg h

/-- The document file is the newest. -/
theorem le_root (hi : FileInv s) {f : File} (hf : f ∈ writtenFiles s.hist) :
    f.mtime ≤ s.files.root.mtime := by
  obtain ⟨rest, hroot⟩ := hi.root
  have hs := hi.sorted
  rw [hroot] at hf hs
  rcases List.mem_cons.mp hf with rfl | hf
  · exact Nat.le_refl _
  · exact Nat.le_of_lt ((List.pairwise_cons.mp hs).1 f hf)

theorem root_mem (hi : FileInv s) : s.files.root ∈ writtenFiles s.hist := by
  obtain ⟨rest, hroot⟩ := hi.root
  rw [hroot]
  exact List.mem_cons_self

theorem kitFinishes (hi : FileInv s) (id : Nat) (answer : SaveAnswer)
    (wasModified : Option Bool) {file : File} (hm : s.files.root.mtime < file.mtime) :
    FileInv (s.kitFinishes id answer wasModified file) := by
  unfold Storing.kitFinishes
  split
  · have hnew : ∀ g ∈ writtenFiles s.hist, g.mtime < file.mtime :=
      fun g hg => Nat.lt_of_le_of_lt (hi.le_root hg) hm
    refine ⟨⟨writtenFiles s.hist, rfl⟩, List.pairwise_cons.mpr ⟨hnew, hi.sorted⟩, ?_, ?_,
      .inr rfl, fun f hf => List.mem_cons_of_mem file (hi.uploading f hf), nofun⟩
    · intro f hf
      obtain ⟨hmem, hle⟩ := hi.loaded f hf
      refine ⟨List.mem_cons_of_mem file hmem, ?_⟩
      intro g hg
      rcases List.mem_cons.mp hg with rfl | hg
      · exact Nat.le_of_lt (hnew f hmem)
      · exact hle g hg
    · intro f hf g hg
      rcases List.mem_cons.mp hg with rfl | hg
      · exact hnew f (hi.loaded f hf).1
      · exact hi.fresh f hf g hg
  · exact ⟨hi.root, hi.sorted, hi.loaded, hi.fresh, .inr rfl, hi.uploading, nofun⟩

/-- After the rename, `.uploading` is the document file, if anything was renamed. -/
theorem renameForUpload (hi : FileInv s) :
    s.files.renameForUpload = s.files ∧ s.files.upload = none ∨
      s.files.renameForUpload = ⟨s.files.root, none, some s.files.root⟩ := by
  unfold Files.renameForUpload
  rcases hi.upload with h | h
  · rw [h]
    exact .inl ⟨rfl, rfl⟩
  · rw [h]
    exact .inr rfl

theorem answerSave (hi : FileInv s) (id : Nat) (answer : SaveAnswer) (wasModified : Option Bool)
    (file : Option File) : FileInv (s.answerSave id answer wasModified file) := by
  have hfiles : (s.answerSave id answer wasModified file).files = s.files.renameForUpload := rfl
  rcases hi.renameForUpload with ⟨h, hnone⟩ | h
  · exact hi.frame (hfiles.trans h) rfl rfl rfl
  · rw [h] at hfiles
    refine ⟨?_, hi.sorted, hi.loaded, hi.fresh, ?_, ?_, ?_⟩
    · rw [hfiles]
      exact hi.root
    · rw [hfiles]
      exact .inl rfl
    · rw [hfiles]
      intro f hf
      cases hf
      exact hi.root_mem
    · rw [hfiles]
      exact fun _ => .inr rfl

theorem uploadStep (hi : FileInv s) (h : UploadStep s s') : FileInv s' :=
  hi.frame h.files h.writtenFiles_eq h.loadedFiles_eq h.newFiles_eq

theorem change (h : Change s s') (hi : FileInv s) : FileInv s' := by
  cases h with
  | kitFinishes id answer wasModified file hp hm => exact hi.kitFinishes id answer wasModified hm
  | answerSave id answer wasModified file => exact hi.answerSave id answer wasModified file
  | attemptUpload request kind file start unloading force =>
      exact hi.uploadStep (.attemptUpload request kind file start unloading force)
  | finishUpload upload reply =>
      exact hi.uploadStep ((UploadStep.finishUpload upload reply).completeUpload _)
  | loseUpload => exact hi.uploadStep .loseUpload
  | failLate => exact hi.uploadStep (UploadStep.retireUpload.completeUpload _)
  | resetUploadRequest => exact hi.uploadStep .resetUploadRequest
  | _ => exact hi.frame rfl rfl rfl rfl

end FileInv

theorem Loaded.fileInv {s : DocumentBroker} (h : Loaded s) : FileInv s.toStoring := by
  obtain ⟨size, hhist⟩ := h.hist
  have hw : writtenFiles s.hist = [s.files.root] := by
    rw [hhist]
    rfl
  have hl : loadedFiles s.hist = [s.files.root] := by
    rw [hhist]
    rfl
  have hn : newFiles s.hist = [] := by
    rw [hhist]
    rfl
  refine ⟨⟨[], hw⟩, ?_, ?_, ?_, .inl h.upload, ?_, fun _ => .inl h.uploading⟩
  · rw [hw]
    exact List.pairwise_singleton _ _
  · rw [hl, hw]
    intro f hf
    refine ⟨hf, ?_⟩
    intro g hg
    rw [List.mem_singleton.mp hf, List.mem_singleton.mp hg]
  · intro f _ g hg
    rw [hn] at hg
    cases hg
  · intro f hf
    rw [h.uploading] at hf
    cases hf

/-- The file of the last successful save is the one at `.uploading`. -/
structure SavedInv (s : Storing) : Prop where
  finished : ∀ save ∈ s.pendingSaves, ∀ answer wasModified file,
    save.finished = some (answer, wasModified, file) →
      s.files.upload = some s.files.root ∧
        (answer = .success → file = some s.files.root ∧ s.files.root ∈ newFiles s.hist)
  saved : ∀ f, lastSavedFile? s.hist = some f → f ∈ newFiles s.hist ∧
    s.files.uploading = some f ∧
    (s.files.root = f ∨ ∃ save ∈ s.pendingSaves, ∃ wasModified file,
      save.finished = some (.success, wasModified, file))

namespace SavedInv

variable {s s' : Storing}

theorem frame (hi : SavedInv s) (hf : s'.files = s.files) (hp : s'.pendingSaves = s.pendingSaves)
    (hh : lastSavedFile? s'.hist = lastSavedFile? s.hist)
    (hn : newFiles s'.hist = newFiles s.hist) : SavedInv s' := by
  obtain ⟨h1, h2⟩ := hi
  rw [← hp, ← hf, ← hn] at h1
  rw [← hh, ← hf, ← hp, ← hn] at h2
  exact ⟨h1, h2⟩

/-- A new request leaves the other saves as they are. -/
theorem sendSave (hi : SavedInv s) (userModified autosave : Bool) (extendedData : String) :
    SavedInv (s.sendSave userModified autosave extendedData) := by
  have hpend : (s.sendSave userModified autosave extendedData).pendingSaves =
      s.pendingSaves ++ [⟨s.hist.length, none⟩] := rfl
  refine ⟨?_, ?_⟩
  · intro save hsave answer wasModified file hfin
    rw [hpend] at hsave
    rcases List.mem_append.mp hsave with hsave | hsave
    · exact hi.finished save hsave answer wasModified file hfin
    · rw [List.mem_singleton.mp hsave] at hfin
      cases hfin
  · intro f hf
    obtain ⟨hnew, hup, hroot⟩ := hi.saved f hf
    refine ⟨hnew, hup, hroot.imp_right ?_⟩
    rintro ⟨save, hsave, hrest⟩
    exact ⟨save, List.mem_append_left _ hsave, hrest⟩

theorem kitFinishes (hi : SavedInv s) (hsv : SaveInv s) {id : Nat} {answer : SaveAnswer}
    {wasModified : Option Bool} {file : File}
    (hp : ∃ save ∈ s.pendingSaves, save.id = id ∧ save.finished = none) :
    SavedInv (s.kitFinishes id answer wasModified file) := by
  obtain ⟨save, hone, hid, hnone⟩ : ∃ save, s.pendingSaves = [save] ∧ save.id = id ∧
      save.finished = none := by
    obtain ⟨save, hmem, hid, hnone⟩ := hp
    rcases hsv.pending with hnil | ⟨save', hone, -⟩
    · rw [hnil] at hmem
      cases hmem
    · rw [hone, List.mem_singleton] at hmem
      subst hmem
      exact ⟨save, hone, hid, hnone⟩
  have hmap : ∀ result, s.pendingSaves.map (PendingSave.finish id result) =
      [⟨id, some result⟩] := by
    intro result
    rw [hone, List.map_singleton, PendingSave.finish, if_pos hid, ← hid]
  unfold Storing.kitFinishes
  split
  · rename_i hans
    refine ⟨?_, ?_⟩
    · intro save' hsave' answer' wasModified' file' hfin
      dsimp only at hsave'
      rw [hmap, List.mem_singleton] at hsave'
      rw [hsave'] at hfin
      cases hfin
      exact ⟨rfl, fun _ => ⟨rfl, List.mem_cons_self⟩⟩
    · intro f hf
      obtain ⟨hnew, hup, -⟩ := hi.saved f hf
      refine ⟨List.mem_cons_of_mem file hnew, hup, .inr ⟨⟨id, some (answer, wasModified, some file)⟩, ?_, wasModified,
        some file, ?_⟩⟩
      · dsimp only
        rw [hmap]
        exact List.mem_singleton_self _
      · rw [hans]
  · rename_i hans
    refine ⟨?_, ?_⟩
    · intro save' hsave' answer' wasModified' file' hfin
      dsimp only at hsave'
      rw [hmap, List.mem_singleton] at hsave'
      rw [hsave'] at hfin
      cases hfin
      exact ⟨rfl, fun h => absurd h hans⟩
    · intro f hf
      obtain ⟨hnew, hup, hroot⟩ := hi.saved f hf
      refine ⟨hnew, hup, .inl ?_⟩
      rcases hroot with hroot | ⟨save', hmem, wm, fo, hfin⟩
      · exact hroot
      · rw [hone, List.mem_singleton] at hmem
        rw [hmem, hnone] at hfin
        cases hfin

theorem answerSave (hi : SavedInv s) (hsv : SaveInv s) {id : Nat} {answer : SaveAnswer}
    {wasModified : Option Bool} {file : Option File}
    (hp : ⟨id, some (answer, wasModified, file)⟩ ∈ s.pendingSaves) :
    SavedInv (s.answerSave id answer wasModified file) := by
  have hone : s.pendingSaves = [⟨id, some (answer, wasModified, file)⟩] := by
    rcases hsv.pending with hnil | ⟨save, hone, -⟩
    · rw [hnil] at hp
      cases hp
    · rw [hone, List.mem_singleton] at hp
      rw [hone, hp]
  have hnone : (s.answerSave id answer wasModified file).pendingSaves = [] := by
    simp [Storing.answerSave, hone]
  obtain ⟨hupload, hsuccess⟩ := hi.finished _ hp answer wasModified file rfl
  have hfiles : (s.answerSave id answer wasModified file).files =
      ⟨s.files.root, none, some s.files.root⟩ := by
    show s.files.renameForUpload = _
    rw [Files.renameForUpload, hupload]
  refine ⟨?_, ?_⟩
  · rw [hnone]
    intro save hsave
    cases hsave
  · intro f hf
    rw [hfiles]
    have hroot : s.files.root = f ∧ f ∈ newFiles s.hist := by
      have hlast : (Obs.savedFile? (.saveAnswered id answer wasModified file)).or
          (lastSavedFile? s.hist) = some f := by
        rw [← hf]
        simp only [lastSavedFile?, Storing.answerSave, List.findSome?_cons]
        cases Obs.savedFile? (.saveAnswered id answer wasModified file) <;> rfl
      by_cases hans : answer = .success
      · obtain ⟨hfile, hnew⟩ := hsuccess hans
        rw [hfile, hans] at hlast
        have he : s.files.root = f := Option.some.inj hlast
        exact ⟨he, he ▸ hnew⟩
      · have hother : Obs.savedFile? (.saveAnswered id answer wasModified file) = none := by
          cases answer with
          | success => exact absurd rfl hans
          | unmodified => rfl
          | failed => rfl
        rw [hother, Option.none_or] at hlast
        obtain ⟨hnew, -, hroot⟩ := hi.saved f hlast
        refine ⟨?_, hnew⟩
        rcases hroot with hroot | ⟨save, hmem, wm, fo, hfin⟩
        · exact hroot
        · rw [hone, List.mem_singleton] at hmem
          rw [hmem] at hfin
          cases hfin
          exact absurd rfl hans
    exact ⟨hroot.2, by rw [hroot.1], .inl hroot.1⟩

theorem uploadStep (hi : SavedInv s) (h : UploadStep s s') : SavedInv s' := by
  refine hi.frame h.files h.pendingSaves ?_ h.newFiles_eq
  exact h.findSome?_hist fun o ho => by cases o <;> first | rfl | cases ho

theorem change (h : Change s s') (hsv : SaveInv s) (hi : SavedInv s) : SavedInv s' := by
  cases h with
  | sendSave userModified autosave extendedData =>
      exact hi.sendSave userModified autosave extendedData
  | kitFinishes id answer wasModified file hp hm => exact hi.kitFinishes hsv hp
  | answerSave id answer wasModified file hp => exact hi.answerSave hsv hp
  | attemptUpload request kind file start unloading force =>
      exact hi.uploadStep (.attemptUpload request kind file start unloading force)
  | finishUpload upload reply =>
      exact hi.uploadStep ((UploadStep.finishUpload upload reply).completeUpload _)
  | loseUpload => exact hi.uploadStep .loseUpload
  | failLate => exact hi.uploadStep (UploadStep.retireUpload.completeUpload _)
  | resetUploadRequest => exact hi.uploadStep .resetUploadRequest
  | _ => exact hi.frame rfl rfl rfl rfl

end SavedInv

theorem Loaded.savedInv {s : DocumentBroker} (h : Loaded s) : SavedInv s.toStoring := by
  obtain ⟨size, hhist⟩ := h.hist
  refine ⟨?_, ?_⟩
  · rw [h.pendingSaves]
    intro save hsave
    cases hsave
  · intro f hf
    rw [hhist] at hf
    cases hf

end CoolOnline.Broker
