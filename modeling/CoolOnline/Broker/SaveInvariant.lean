import CoolOnline.Broker.Runs

/-! # Invariants of saving -/

namespace CoolOnline.Broker

/-- No save is asked for while an earlier one is unanswered. -/
def savesInTurn : Obs → Bool
  | .saveRequested _ _ overlaps => !overlaps
  | _ => true

/-- What the save manager knows of the last save request. -/
structure SaveInv (s : Storing) : Prop where
  pending : s.pendingSaves = [] ∨
    ∃ save, s.pendingSaves = [save] ∧ lastRequest? s.hist = some save.id
  saving : s.saveManager.isSaving = true → s.pendingSaves ≠ []
  unanswered : s.pendingSaves ≠ [] →
    s.saveManager.isSaving = true ∨ s.saveManager.lastSaveSuccessful = false
  answered : s.saveManager.lastSaveSuccessful = true → s.saveManager.isSaving = false →
    ∀ id, lastRequest? s.hist = some id → id ∈ okAnswerIds s.hist
  activity : s.haveModifyActivityAfterSaveRequest = unsavedActivity s.hist
  modifyTime : s.lastModifyActivityTime ≤ s.now

namespace SaveInv

variable {s s' : Storing}

/-- Changes that do not concern saving. -/
theorem frame (hi : SaveInv s) (hp : s'.pendingSaves = s.pendingSaves)
    (hm : s'.saveManager.request = s.saveManager.request)
    (ha : s'.lastModifyActivityTime = s.lastModifyActivityTime) (hnow : s.now ≤ s'.now)
    (hr : lastRequest? s'.hist = lastRequest? s.hist)
    (hok : okAnswerIds s'.hist = okAnswerIds s.hist)
    (hu : unsavedActivity s'.hist = unsavedActivity s.hist) : SaveInv s' := by
  obtain ⟨h1, h2, h3, h4, h5, h6⟩ := hi
  constructor
  · rw [hp, hr]
    exact h1
  · simpa only [SaveManager.isSaving, hm, hp] using h2
  · simpa only [SaveManager.isSaving, SaveManager.lastSaveSuccessful, hm, hp] using h3
  · simpa only [SaveManager.isSaving, SaveManager.lastSaveSuccessful, hm, hr, hok] using h4
  · show decide (s'.saveManager.request.lastRequestTime < s'.lastModifyActivityTime) = _
    rw [hm, ha, hu]
    exact h5
  · rw [ha]
    exact Nat.le_trans h6 hnow

theorem sendSave (hi : SaveInv s) (ht : s.Timed) (userModified autosave : Bool)
    (extendedData : String)
    (hC : Along (fun o _ => savesInTurn o) (s.sendSave userModified autosave extendedData).hist) :
    SaveInv (s.sendSave userModified autosave extendedData) := by
  have hnone : s.pendingSaves = [] := by
    have ho : (!(!s.pendingSaves.isEmpty)) = true := hC.1
    simpa using ho
  have hsaving : (s.sendSave userModified autosave extendedData).saveManager.isSaving = true :=
    decide_eq_true ht.2
  have hpend : (s.sendSave userModified autosave extendedData).pendingSaves =
      [⟨s.hist.length, none⟩] := by
    show s.pendingSaves ++ [⟨s.hist.length, none⟩] = _
    rw [hnone]
    rfl
  refine ⟨.inr ⟨_, hpend, rfl⟩, ?_, ?_, ?_, ?_, hi.modifyTime⟩
  · intro _
    rw [hpend]
    simp
  · intro _
    exact .inl hsaving
  · intro _ hnot
    rw [hsaving] at hnot
    cases hnot
  · exact decide_eq_false (Nat.not_lt.mpr hi.modifyTime)

theorem modifyActivity (hi : SaveInv s) (ht : s.Timed) : SaveInv s.modifyActivity :=
  ⟨hi.pending, hi.saving, hi.unanswered, hi.answered, decide_eq_true ht.1, Nat.le_refl _⟩

theorem answerSave (hi : SaveInv s) (hc : s.Clocked) {id : Nat} {answer : SaveAnswer}
    {wasModified : Option Bool} {file : Option File}
    (hp : ⟨id, some (answer, wasModified, file)⟩ ∈ s.pendingSaves) :
    SaveInv (s.answerSave id answer wasModified file) := by
  obtain ⟨hpend, hlast⟩ : s.pendingSaves = [⟨id, some (answer, wasModified, file)⟩] ∧
      lastRequest? s.hist = some id := by
    rcases hi.pending with hnil | ⟨save, hone, hl⟩
    · rw [hnil] at hp
      cases hp
    · rw [hone, List.mem_singleton] at hp
      subst hp
      exact ⟨hone, hl⟩
  have hnone : (s.answerSave id answer wasModified file).pendingSaves = [] := by
    simp [Storing.answerSave, hpend]
  have hsaving : (s.answerSave id answer wasModified file).saveManager.isSaving = false :=
    RequestManager.setLastRequestResult_isActive _ _ _ hc.1
  have hok : (s.answerSave id answer wasModified file).saveManager.lastSaveSuccessful =
      answer.isOk := RequestManager.setLastRequestResult_successful _ _ _
  refine ⟨.inl hnone, ?_, ?_, ?_, hi.activity, hi.modifyTime⟩
  · intro h
    rw [hsaving] at h
    cases h
  · intro h
    exact absurd hnone h
  · intro h _ id' hid'
    rw [hok] at h
    have he : lastRequest? s.hist = some id' := hid'
    rw [hlast] at he
    cases he
    show id ∈ List.filterMap _ (_ :: _)
    simp [Obs.okAnswerId?, h]

theorem giveUpSave (hi : SaveInv s) (hc : s.Clocked) : SaveInv s.giveUpSave := by
  have hsaving : s.giveUpSave.saveManager.isSaving = false :=
    RequestManager.setLastRequestResult_isActive _ _ _ hc.1
  have hok : s.giveUpSave.saveManager.lastSaveSuccessful = false :=
    RequestManager.setLastRequestResult_successful _ _ _
  refine ⟨hi.pending, ?_, fun _ => .inr hok, ?_, hi.activity, hi.modifyTime⟩
  · intro h
    rw [hsaving] at h
    cases h
  · intro h
    rw [hok] at h
    cases h

theorem kitFinishes (hi : SaveInv s) (id : Nat) (answer : SaveAnswer)
    (wasModified : Option Bool) (file : File) :
    SaveInv (s.kitFinishes id answer wasModified file) := by
  have hmap : ∀ result, (s.pendingSaves.map (PendingSave.finish id result) = [] ↔
      s.pendingSaves = []) ∧ (∀ save, s.pendingSaves = [save] →
        ∃ save', s.pendingSaves.map (PendingSave.finish id result) = [save'] ∧
          save'.id = save.id) := by
    intro result
    refine ⟨List.map_eq_nil_iff, ?_⟩
    intro save hone
    refine ⟨PendingSave.finish id result save, by rw [hone]; rfl, ?_⟩
    unfold PendingSave.finish
    split <;> rfl
  unfold Storing.kitFinishes
  split
  · obtain ⟨hnil, hone⟩ := hmap (answer, wasModified, some file)
    refine ⟨?_, fun h => mt hnil.mp (hi.saving h), fun h => hi.unanswered (mt hnil.mpr h),
      hi.answered, hi.activity, hi.modifyTime⟩
    rcases hi.pending with h | ⟨save, h, hl⟩
    · exact .inl (hnil.mpr h)
    · obtain ⟨save', h', hid⟩ := hone save h
      exact .inr ⟨save', h', hid ▸ hl⟩
  · obtain ⟨hnil, hone⟩ := hmap (answer, wasModified, none)
    refine ⟨?_, fun h => mt hnil.mp (hi.saving h), fun h => hi.unanswered (mt hnil.mpr h),
      hi.answered, hi.activity, hi.modifyTime⟩
    rcases hi.pending with h | ⟨save, h, hl⟩
    · exact .inl (hnil.mpr h)
    · obtain ⟨save', h', hid⟩ := hone save h
      exact .inr ⟨save', h', hid ▸ hl⟩

theorem uploadStep (hi : SaveInv s) (h : UploadStep s s') : SaveInv s' := by
  refine hi.frame h.pendingSaves h.request h.lastModifyActivityTime (Nat.le_of_eq h.now.symm)
    ?_ ?_ ?_
  · exact h.findSome?_hist fun o ho => by cases o <;> first | rfl | cases ho
  · exact h.filterMap_hist fun o ho => by cases o <;> first | rfl | cases ho
  · obtain ⟨os, hh, hos⟩ := h.hist
    rw [hh]
    exact unsavedActivity_of_isUpload hos

theorem change (h : Change s s') (hC : Along (fun o _ => savesInTurn o) s'.hist)
    (hc : s.Clocked) (hi : SaveInv s) : SaveInv s' := by
  cases h with
  | tick now hnow => exact hi.frame rfl rfl rfl (Nat.le_of_lt hnow) rfl rfl rfl
  | modifyActivity ht => exact hi.modifyActivity ht
  | sendSave userModified autosave extendedData ht =>
      exact hi.sendSave ht userModified autosave extendedData hC
  | kitFinishes id answer wasModified file => exact hi.kitFinishes id answer wasModified file
  | answerSave id answer wasModified file hp => exact hi.answerSave hc hp
  | giveUpSave => exact hi.giveUpSave hc
  | attemptUpload request kind file start unloading force =>
      exact hi.uploadStep (.attemptUpload request kind file start unloading force)
  | finishUpload upload reply =>
      exact hi.uploadStep ((UploadStep.finishUpload upload reply).completeUpload _)
  | loseUpload => exact hi.uploadStep .loseUpload
  | failLate => exact hi.uploadStep (UploadStep.retireUpload.completeUpload _)
  | resetUploadRequest => exact hi.uploadStep .resetUploadRequest
  | _ => exact hi.frame rfl rfl rfl (Nat.le_refl _) rfl rfl rfl

end SaveInv

theorem Loaded.saveInv {s : DocumentBroker} (h : Loaded s) : SaveInv s.toStoring := by
  obtain ⟨size, hhist⟩ := h.hist
  have hactive : s.saveManager.isSaving = false :=
    decide_eq_false (Nat.not_lt.mpr h.lastRequestTime)
  refine ⟨.inl h.pendingSaves, ?_, ?_, ?_, ?_, ?_⟩
  · intro hs
    rw [hactive] at hs
    cases hs
  · intro hp
    exact absurd h.pendingSaves hp
  · intro _ _ id hid
    rw [hhist] at hid
    cases hid
  · rw [hhist]
    exact decide_eq_false (Nat.not_lt.mpr h.lastModifyActivityTime)
  · exact Nat.le_trans h.lastModifyActivityTime
      (Nat.le_trans h.lastRequestTime h.lastResponseTime)

end CoolOnline.Broker
