import CoolOnline.Broker.UploadedMark

/-! # Stopping a document that is saved and stored -/

namespace CoolOnline.Broker

/-- Where `autoSaveAndStop` stops although it could save and upload, all modifying activity has
been saved, and the host has accepted the last save. -/
def StopsWhenStored : Obs → List Obs → Prop
  | .autoStopped stop, older =>
      stop.canSave = true → stop.authorizedWriter = true → stop.limitReached = false →
        ActivitySaved older ∧ LastSaveAccepted older
  | _, _ => True

/-- Saves and uploads are asked for in turn. -/
def storesInTurn (o : Obs) : Bool := savesInTurn o && uploadsInTurn o

/-- When `autoSaveAndStop` stops, the session it would upload with has a valid authorization if
any writable session has one. -/
def writerIsChosen : Obs → Bool
  | .autoStopped stop => !stop.authorizedWriter || stop.writerAuthorized
  | _ => true

/-- The invariants of saving and uploading. -/
structure StoringInv (s : Storing) : Prop where
  clocked : s.Clocked
  save : SaveInv s
  file : FileInv s
  saved : SavedInv s
  upload : UploadInv s

theorem along_savesInTurn {l : List Obs} (h : Along (fun o _ => storesInTurn o) l) :
    Along (fun o _ => savesInTurn o) l :=
  h.imp fun _ _ ho => (Bool.and_eq_true_iff.mp ho).1

theorem along_uploadsInTurn {l : List Obs} (h : Along (fun o _ => storesInTurn o) l) :
    Along (fun o _ => uploadsInTurn o) l :=
  h.imp fun _ _ ho => (Bool.and_eq_true_iff.mp ho).2

namespace StoringInv

variable {s s' : Storing}

theorem change (h : Change s s') (hC : Along (fun o _ => storesInTurn o) s'.hist)
    (hi : StoringInv s) : StoringInv s' where
  clocked := h.clocked hi.clocked
  save := hi.save.change h (along_savesInTurn hC) hi.clocked
  file := hi.file.change h
  saved := hi.saved.change h hi.save
  upload := hi.upload.change h (along_uploadsInTurn hC) hi.file

/-- An up-to-date storage has accepted the last save. -/
theorem lastSaveAccepted (hi : StoringInv s) (hout : s.isStorageOutdated = false) :
    LastSaveAccepted s.hist := by
  intro f hf
  obtain ⟨hnew, hup, -⟩ := hi.saved.saved f hf
  have hmark : s.storageManager.lastUploadedFileModifiedLocalTime = f.mtime := by
    unfold Storing.isStorageOutdated at hout
    rw [hup] at hout
    exact (bne_eq_false_iff_eq.mp hout).symm
  rcases hi.upload.lastUploaded with ⟨g, hload, hm⟩ | ⟨g, hacc, hm⟩
  · have hlt := hi.file.fresh g hload f hnew
    omega
  · have he : g = f := hi.file.eq_of_mtime (hi.upload.accepted g hacc).1
      (hi.file.uploading f hup) (hm.symm.trans hmark)
    rw [← he]
    exact hacc

/-- Nothing modified since a successful save has all activity saved. -/
theorem activitySaved (hi : StoringInv s) (hsaving : s.saveManager.isSaving = false)
    (hok : s.saveManager.lastSaveSuccessful = true)
    (hact : s.haveModifyActivityAfterSaveRequest = false) : ActivitySaved s.hist := by
  refine activitySaved_of_lastRequest ?_ (hi.save.answered hok hsaving)
  rw [← hi.save.activity]
  exact hact

end StoringInv

theorem Loaded.storingInv {s : DocumentBroker} (h : Loaded s) : StoringInv s.toStoring :=
  ⟨h.clocked, h.saveInv, h.fileInv, h.savedInv, h.uploadInv⟩

/-- What a stop needs holds where it is made. -/
theorem Change.stopsWhenStored {s s' : Storing} (h : Change s s')
    (hC : Along (fun o _ => writerIsChosen o) s'.hist) (hi : StoringInv s)
    (hs : Along StopsWhenStored s.hist) : Along StopsWhenStored s'.hist := by
  refine h.along_decisions (fun o _ ho => by cases o <;> trivial) ?_
    (fun _ _ _ => trivial) hs
  intro stop hhist hstop hcan hwriter _
  have hauth : stop.writerAuthorized = true := by
    rw [← hhist] at hC
    have hc : (!stop.authorizedWriter || stop.writerAuthorized) = true := hC.1
    rw [hwriter] at hc
    exact hc
  obtain ⟨hsaving, hok, hact, hout⟩ := hstop hcan hauth
  exact ⟨hi.activitySaved hsaving hok hact, hi.lastSaveAccepted hout⟩

/-- The broker stops a document that it could save and store only when that has been done, in
every run that saves and uploads in turn and chooses an authorized writer. -/
theorem stops_when_stored {s s' : DocumentBroker} {es : List (Nat × Event)} (hload : Loaded s)
    (hrun : run DocumentBroker.step s es = some s')
    (hC : Along (fun o _ => storesInTurn o && writerIsChosen o) s'.hist) :
    Along StopsWhenStored s'.hist := by
  have hi : StoringInv s'.toStoring ∧ Along StopsWhenStored s'.hist := by
    refine run_holds (I := fun x => StoringInv x ∧ Along StopsWhenStored x.hist) ?_ hload hrun hC
      ⟨hload.storingInv, ?_⟩
    · intro x y h hC hi
      have hturn : Along (fun o _ => storesInTurn o) y.hist :=
        hC.imp fun _ _ ho => (Bool.and_eq_true_iff.mp ho).1
      have hwriter : Along (fun o _ => writerIsChosen o) y.hist :=
        hC.imp fun _ _ ho => (Bool.and_eq_true_iff.mp ho).2
      exact ⟨hi.1.change h hturn, h.stopsWhenStored hwriter hi.1 hi.2⟩
    · obtain ⟨size, hhist⟩ := hload.hist
      rw [hhist]
      exact ⟨trivial, trivial⟩
  exact hi.2

def closeAndPoll (time : Nat) : List (Nat × Event) :=
  [(time, .modifiedStatus false), (time + 1, .closeDocument "ownertermination"),
    (time + 3000000000, .poll true)]

theorem stops_when_stored_savedOnce : ∃ s', run DocumentBroker.step editedDocument
      (savedOnce ++ uploadAccepted 15 :: closeAndPoll 16) = some s' ∧ s'.stopped = true ∧
    Along StopsWhenStored s'.hist := by
  obtain ⟨s', hrun, hC, hstop⟩ := run_reaches DocumentBroker.step editedDocument
    (savedOnce ++ uploadAccepted 15 :: closeAndPoll 16)
    (P := fun s => Along (fun o _ => storesInTurn o && writerIsChosen o) s.hist ∧
      s.stopped = true) (by decide +kernel)
  exact ⟨s', hrun, hstop, stops_when_stored (DocumentBroker.load_loaded _ _ _ _ _) hrun hC⟩

/-- A save times out, another one is asked for after more changes, and the late answer to the
first is taken for the answer to both. -/
def savedLate : List (Nat × Event) :=
  [(10, .modifyActivity), (11, .modifiedStatus true), (12, .manualSave 1 ""),
    (61000000000, .poll true), (62000000000, .modifyActivity), (63000000000, .manualSave 1 ""),
    (64000000000, .kitFinishes 2 .success (some true) ⟨200, 20, 1⟩),
    (65000000000, .saveResponse 2 1), uploadAccepted 66000000000]

/-- The broker stops while the save of the last changes is still unanswered. -/
theorem stops_before_stored_savedLate : ¬ ∀ (s s' : DocumentBroker) (es : List (Nat × Event)),
    Loaded s → run DocumentBroker.step s es = some s' → Along StopsWhenStored s'.hist := by
  intro h
  obtain ⟨s', hrun, hhead, hsplit, hids⟩ := run_reaches DocumentBroker.step editedDocument
    (savedLate ++ closeAndPoll 67000000000)
    (P := fun s => s.hist.head? = some (.autoStopped ⟨true, true, true, false⟩) ∧
      s.hist.tail = s.hist.tail.take 6 ++ .modifyActivity :: s.hist.tail.drop 7 ∧
        ∀ id ∈ requestIds (s.hist.tail.take 6), id ∉ okAnswerIds s.hist.tail)
    (by decide +kernel)
  have hs := h _ _ _ (DocumentBroker.load_loaded _ _ _ _ _) hrun
  obtain ⟨older, hhist⟩ := List.head?_eq_some_iff.mp hhead
  rw [hhist] at hs hsplit hids
  obtain ⟨id, hid, hok⟩ := (hs.1 rfl rfl rfl).1 _ _ hsplit
  exact hids id hid hok

end CoolOnline.Broker
