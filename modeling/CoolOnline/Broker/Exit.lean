import CoolOnline.Broker.Stopping

/-! # Leaving the polling thread

The data-loss check after the loop of `pollThread`, and the file that goes to the quarantine.
-/

namespace CoolOnline.Broker

/-- The loaded document has changes that the storage does not have: it is flagged as modified,
there was activity after the last save request, a save is unanswered or the last one failed, or
the last saved file has not been accepted. -/
def HasUnstoredWork (s : DocumentBroker) : Prop :=
  s.isModified = true ∨ unsavedActivity s.hist = true ∨ s.pendingSaves ≠ [] ∨
    (∃ id, lastRequest? s.hist = some id ∧ id ∉ okAnswerIds s.hist) ∨ ¬ LastSaveAccepted s.hist

/-- Leaving the loop reports the loss of work, unless the owner discards it. -/
def ReportsLoss (s s' : DocumentBroker) : Prop :=
  HasUnstoredWork s → s'.dataLoss = true ∨ s.isDiscardingConflict = true

/-- The modified flag or an unanswered save is not all that tells of a loss: there was activity
after the last save request, the last save or upload has failed, or the storage is outdated. -/
def LossIsSeen (s : DocumentBroker) : Prop :=
  s.isModified = true ∨ s.saveUnanswered = true →
    s.haveModifyActivityAfterSaveRequest = true ∨ s.saveManager.lastSaveSuccessful = false ∨
      s.storageManager.lastUploadSuccessful = false ∨ s.isStorageOutdated = true ∨
        s.isDiscardingConflict = true

def Files.existing (files : Files) : List File :=
  files.root :: (files.upload.toList ++ files.uploading.toList)

/-- After a loss of data the newest file goes to the quarantine. -/
def QuarantinesNewest (s s' : DocumentBroker) : Prop :=
  s.dataLoss = true → s.config.quarantineEnabled = true →
    ∃ f, s'.hist = .quarantined f :: s.hist ∧ ∀ g ∈ s.files.existing, g.mtime ≤ f.mtime

/-- The file at `.uploading` is not older than one at `.upload`. -/
def UploadingIsNewest (s : DocumentBroker) : Prop :=
  s.dataLoss = true → s.config.quarantineEnabled = true →
    ∀ f g, s.files.uploading = some f → s.files.upload = some g → g.mtime ≤ f.mtime

section Check

variable {s s' : DocumentBroker}

theorem leaveLoop_dataLoss (h : s.leaveLoop = s') :
    s'.dataLoss = (s.mayHaveDataLoss && !s.isDiscardingConflict) := by
  rw [← h]
  rfl

theorem mayHaveDataLoss_iff : s.mayHaveDataLoss = true ↔
    s.haveModifyActivityAfterSaveRequest = true ∨ s.saveManager.lastSaveSuccessful = false ∨
      s.storageManager.lastUploadSuccessful = false ∨ s.isStorageOutdated = true := by
  simp only [DocumentBroker.mayHaveDataLoss, Bool.or_eq_true, Bool.not_eq_true', or_assoc]

/-- What the storing part knows to be unstored, one of the tests sees. -/
theorem mayHaveDataLoss_of_unstored (hi : StoringInv s.toStoring) (h : HasUnstoredWork s)
    (hmod : s.isModified = false) (hpend : s.pendingSaves = []) : s.mayHaveDataLoss = true := by
  by_contra hnot
  simp only [DocumentBroker.mayHaveDataLoss, Bool.or_eq_true, Bool.not_eq_true', not_or,
    Bool.not_eq_true, Bool.not_eq_false] at hnot
  obtain ⟨⟨⟨hact, hsave⟩, -⟩, hout⟩ := hnot
  have hsaving : s.saveManager.isSaving = false := by
    by_contra hs
    exact hi.save.saving (Bool.not_eq_false _ ▸ hs) hpend
  rcases h with h | h | h | ⟨id, hid, hno⟩ | h
  · rw [hmod] at h
    cases h
  · rw [← hi.save.activity, hact] at h
    cases h
  · exact h hpend
  · exact hno (hi.save.answered hsave hsaving id hid)
  · exact h (hi.lastSaveAccepted hout)

theorem reportsLoss_iff (hi : StoringInv s.toStoring) (h : s.leaveLoop = s') :
    ReportsLoss s s' ↔ LossIsSeen s := by
  have hloss := leaveLoop_dataLoss h
  have htests : LossIsSeen s ↔ (s.isModified = true ∨ s.saveUnanswered = true →
      s.mayHaveDataLoss = true ∨ s.isDiscardingConflict = true) := by
    simp only [LossIsSeen, mayHaveDataLoss_iff, or_assoc]
  rw [htests]
  constructor
  · intro hr hseen
    have hwork : HasUnstoredWork s := by
      rcases hseen with hm | hp
      · exact .inl hm
      · refine .inr (.inr (.inl ?_))
        simpa [Storing.saveUnanswered] using hp
    rcases hr hwork with hd | hd
    · rw [hloss, Bool.and_eq_true] at hd
      exact .inl hd.1
    · exact .inr hd
  · intro hseen hwork
    have htest : s.mayHaveDataLoss = true ∨ s.isDiscardingConflict = true := by
      by_cases hm : s.isModified = true
      · exact hseen (.inl hm)
      · by_cases hp : s.saveUnanswered = true
        · exact hseen (.inr hp)
        · refine .inl (mayHaveDataLoss_of_unstored hi hwork (Bool.eq_false_iff.mpr hm) ?_)
          simpa [Storing.saveUnanswered] using hp
    rcases htest with ht | ht
    · cases hd : s.isDiscardingConflict with
      | true => exact .inr rfl
      | false =>
          rw [hloss, ht, hd]
          exact .inl rfl
    · exact .inr ht

/-- The file chosen for the quarantine is the newest one exactly when `.uploading` is not older
than `.upload`. -/
theorem toQuarantine_newest (hi : FileInv s.toStoring) :
    (∀ g ∈ s.files.existing, g.mtime ≤ s.files.toQuarantine.mtime) ↔
      ∀ f g, s.files.uploading = some f → s.files.upload = some g → g.mtime ≤ f.mtime := by
  cases hup : s.files.uploading with
  | none =>
      refine ⟨fun _ => nofun, fun _ => ?_⟩
      cases hu : s.files.upload with
      | none => simp [Files.existing, Files.toQuarantine, hup, hu]
      | some file =>
          have hroot : file = s.files.root := by
            have hc := hi.upload
            rw [hu] at hc
            simpa using hc
          simp [Files.existing, Files.toQuarantine, hup, hu, hroot]
  | some f =>
      have hf : s.files.toQuarantine = f := by simp [Files.toQuarantine, hup]
      rw [hf]
      cases hu : s.files.upload with
      | none =>
          have hroot : f = s.files.root := by
            have hc := hi.current hu
            rw [hup] at hc
            simpa using hc
          simp [Files.existing, hup, hu, hroot]
      | some file =>
          have hroot : file = s.files.root := by
            have hc := hi.upload
            rw [hu] at hc
            simpa using hc
          simp [Files.existing, hup, hu, hroot]

theorem quarantinesNewest_iff (hi : FileInv s.toStoring) (h : s.finish = s') :
    QuarantinesNewest s s' ↔ UploadingIsNewest s := by
  have hq : s.dataLoss = true → s.config.quarantineEnabled = true →
      s'.hist = .quarantined s.files.toQuarantine :: s.hist := by
    intro hd he
    rw [← h]
    simp [DocumentBroker.finish, hd, he, Storing.observe]
  constructor
  · intro hn hd he
    obtain ⟨f, hf, hle⟩ := hn hd he
    rw [hq hd he] at hf
    cases hf
    exact (toQuarantine_newest hi).mp hle
  · intro hn hd he
    exact ⟨_, hq hd he, (toQuarantine_newest hi).mpr (hn hd he)⟩

end Check

/-- In every run that saves and uploads in turn, the data-loss check sees what is lost exactly
when the modified flag and unanswered saves come with one of its tests, and the quarantine gets
the newest file exactly when `.uploading` is not older than `.upload`. -/
theorem exit_iff {s s' s'' : DocumentBroker} {es : List (Nat × Event)} (hload : Loaded s)
    (hrun : run DocumentBroker.step s es = some s')
    (hC : Along (fun o _ => storesInTurn o) s'.hist) (time : Nat) :
    (s'.step (time, .leaveLoop) = some s'' → (ReportsLoss s' s'' ↔ LossIsSeen s')) ∧
      (s'.step (time, .finish) = some s'' → (QuarantinesNewest s' s'' ↔ UploadingIsNewest s')) := by
  have hi : StoringInv s'.toStoring :=
    run_holds (fun x y h hC hi => StoringInv.change h hC hi) hload hrun hC hload.storingInv
  have htick : s'.now < time → StoringInv (s'.storing fun t => t.tick time).toStoring :=
    fun hlt => StoringInv.change (Change.tick _ time hlt) hC hi
  constructor
  · intro hs
    unfold DocumentBroker.step at hs
    split at hs
    · rename_i hlt
      simp only [DocumentBroker.handle] at hs
      split at hs
      · have h : ReportsLoss (s'.storing fun t => t.tick time) s'' ↔
            LossIsSeen (s'.storing fun t => t.tick time) :=
          reportsLoss_iff (htick hlt.1) (Option.some.inj hs)
        exact h
      · cases hs
    · cases hs
  · intro hs
    unfold DocumentBroker.step at hs
    split at hs
    · rename_i hlt
      simp only [DocumentBroker.handle] at hs
      split at hs
      · have h : QuarantinesNewest (s'.storing fun t => t.tick time) s'' ↔
            UploadingIsNewest (s'.storing fun t => t.tick time) :=
          quarantinesNewest_iff (htick hlt.1).file (Option.some.inj hs)
        exact h
      · cases hs
    · cases hs

/-- After a save that has been stored, nothing is lost, and nothing is reported. -/
theorem exit_iff_savedOnce : ∃ s' s'', run DocumentBroker.step editedDocument
      (savedOnce ++ [uploadAccepted 15, (16, .modifiedStatus false), (17, .terminate)]) = some s' ∧
    s'.step (18, .leaveLoop) = some s'' ∧ s''.dataLoss = false ∧
      (ReportsLoss s' s'' ↔ LossIsSeen s') := by
  obtain ⟨s', hrun, hC, hleave⟩ := run_reaches DocumentBroker.step editedDocument
    (savedOnce ++ [uploadAccepted 15, (16, .modifiedStatus false), (17, .terminate)])
    (P := fun s => Along (fun o _ => storesInTurn o) s.hist ∧
      (s.step (18, .leaveLoop)).any fun s => !s.dataLoss) (by decide +kernel)
  obtain ⟨s'', hstep, hloss⟩ := (Option.any_eq_true _ _).mp hleave
  exact ⟨s', s'', hrun, hstep, by simpa using hloss,
    (exit_iff (DocumentBroker.load_loaded _ _ _ _ _) hrun hC 18).1 hstep⟩

/-- A late `ModifiedStatus` is not seen by the check. -/
theorem exit_loses_modified : ¬ ∀ (s s' s'' : DocumentBroker) (es : List (Nat × Event))
    (time : Nat), Loaded s → run DocumentBroker.step s es = some s' →
      (s'.step (time, .leaveLoop) = some s'' → ReportsLoss s' s'') ∧
        (s'.step (time, .finish) = some s'' → QuarantinesNewest s' s'') := by
  intro h
  obtain ⟨s', hrun, hmod, hdiscard, hleave⟩ := run_reaches DocumentBroker.step editedDocument
    [(10, .modifiedStatus true), (11, .terminate)]
    (P := fun s => s.isModified = true ∧ s.isDiscardingConflict = false ∧
      (s.step (12, .leaveLoop)).any fun s => !s.dataLoss) (by decide +kernel)
  obtain ⟨s'', hstep, hloss⟩ := (Option.any_eq_true _ _).mp hleave
  rcases (h _ _ _ _ 12 (DocumentBroker.load_loaded _ _ _ _ _) hrun).1 hstep (.inl hmod)
    with hd | hd
  · rw [hd] at hloss
    cases hloss
  · rw [hdiscard] at hd
    cases hd

end CoolOnline.Broker
