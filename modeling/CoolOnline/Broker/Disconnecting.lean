import CoolOnline.Broker.Stopping

/-! # Disconnecting the last session that can edit -/

namespace CoolOnline.Broker

/-- The last session that can edit is disconnected only when no save and no upload is needed
that can still be issued. -/
def StaysWhileUnstored : Obs → List Obs → Prop
  | .disconnected d, _ => d.leaving.lastEditable = true → d.leaving.canStore = false
  | _, _ => True

/-- `removeSession` on the last session that can edit finds a save under way, or asks for one,
whenever something is to be stored and can be; and the closed sessions are disconnected after an
upload, or when there is nothing to upload, only with nothing left to save. -/
def storesBeforeLeaving : Obs → Bool
  | .sessionLeft r => !(r.leaving.lastEditable && r.leaving.canStore) || r.saves
  | .disconnected d =>
      !(d.leaving.lastEditable && (d.leaving.canSave || d.leaving.canUpload)) ||
        match d.cause with
        | .removed => true
        | .uploaded settled => settled
        | .nothingToUpload mayBeUnsaved => !mayBeUnsaved
  | _ => true

theorem Change.staysWhileUnstored {s s' : Storing} (h : Change s s')
    (hC : Along (fun o _ => storesBeforeLeaving o) s'.hist)
    (hs : Along StaysWhileUnstored s.hist) : Along StaysWhileUnstored s'.hist := by
  refine h.along_decisions (fun o _ ho => by cases o <;> trivial) (fun _ _ _ => trivial) ?_ hs
  intro d hhist hd hlast
  rw [← hhist] at hC
  by_contra hcan
  rw [Bool.not_eq_false] at hcan
  have hissue : (d.leaving.canSave || d.leaving.canUpload) = true := by
    unfold Leaving.canStore at hcan
    cases hsave : d.leaving.canSave <;> cases hup : d.leaving.canUpload <;> simp_all
  have hcause := hC.1
  simp only [storesBeforeLeaving, hlast, hissue, Bool.and_self, Bool.not_true, Bool.false_or]
    at hcause
  unfold Storing.MayDisconnect at hd
  cases hc : d.cause with
  | removed =>
      rw [hc] at hd
      obtain ⟨r, hr, hsame, hsaves⟩ := hd
      obtain ⟨older, ho⟩ := hC.2.of_mem hr
      simp only [storesBeforeLeaving, hsame, hlast, hcan, hsaves hlast] at ho
      cases ho
  | uploaded settled =>
      rw [hc] at hd hcause
      rw [Leaving.not_canStore (hd hcause)] at hcan
      cases hcan
  | nothingToUpload mayBeUnsaved =>
      rw [hc] at hd hcause
      rw [Leaving.not_canStore (hd (by simpa using hcause))] at hcan
      cases hcan

/-- The last session that can edit stays until its work is stored, in every run in which it
stores before it leaves. -/
theorem lastEditable_stays {s s' : DocumentBroker} {es : List (Nat × Event)} (hload : Loaded s)
    (hrun : run DocumentBroker.step s es = some s')
    (hC : Along (fun o _ => storesBeforeLeaving o) s'.hist) :
    Along StaysWhileUnstored s'.hist := by
  refine run_holds (I := fun x => Along StaysWhileUnstored x.hist) ?_ hload hrun hC ?_
  · intro x y h hC hs
    exact h.staysWhileUnstored hC hs
  · obtain ⟨size, hhist⟩ := hload.hist
    rw [hhist]
    exact ⟨trivial, trivial⟩

/-- The session leaves with unsaved work; it is disconnected once that is uploaded. -/
def leftModified : List (Nat × Event) :=
  [(10, .modifyActivity), (11, .modifiedStatus true), (12, .closeFrame 1), (13, .removeSession 1),
    (14, .modifiedStatus false), (15, .kitFinishes 3 .success (some true) ⟨200, 20, 1⟩),
    (16, .saveResponse 3 1), uploadAccepted 17]

theorem lastEditable_stays_leftModified : ∃ s', run DocumentBroker.step editedDocument
      leftModified = some s' ∧ (∃ d, .disconnected d ∈ s'.hist) ∧
    Along StaysWhileUnstored s'.hist := by
  obtain ⟨s', hrun, hC, hleft⟩ := run_reaches DocumentBroker.step editedDocument
    leftModified
    (P := fun s => Along (fun o _ => storesBeforeLeaving o) s.hist ∧
      s.hist.head? = some (.disconnected ⟨1, .uploaded true, ⟨true, false, false, true, true⟩⟩))
    (by decide +kernel)
  obtain ⟨older, hhist⟩ := List.head?_eq_some_iff.mp hleft
  exact ⟨s', hrun, ⟨_, hhist ▸ List.mem_cons_self⟩,
    lastEditable_stays (DocumentBroker.load_loaded _ _ _ _ _) hrun hC⟩

/-- The session leaves while its saved work is still being uploaded, and is disconnected at
once. -/
theorem lastEditable_leaves_uploading : ¬ ∀ (s s' : DocumentBroker) (es : List (Nat × Event)),
    Loaded s → run DocumentBroker.step s es = some s' → Along StaysWhileUnstored s'.hist := by
  intro h
  obtain ⟨s', hrun, hleft⟩ := run_reaches DocumentBroker.step editedDocument
    (savedOnce ++ [(15, .modifiedStatus false), (16, .removeSession 1)])
    (P := fun s => s.hist.head? = some (.disconnected ⟨1, .removed, ⟨true, false, true, true, true⟩⟩))
    (by decide +kernel)
  have hs := h _ _ _ (DocumentBroker.load_loaded _ _ _ _ _) hrun
  obtain ⟨older, hhist⟩ := List.head?_eq_some_iff.mp hleft
  rw [hhist] at hs
  cases hs.1 rfl

end CoolOnline.Broker
