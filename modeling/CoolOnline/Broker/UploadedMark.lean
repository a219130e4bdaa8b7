import CoolOnline.Broker.UploadInvariant

/-! # The mark of the uploaded file -/

namespace CoolOnline.Broker

/-- When the mark is the modified time of the file at `.uploading` and some upload has been
accepted, that file has been accepted. -/
def MarkIsTrue (s : Storing) : Prop :=
  ∀ g, s.files.uploading = some g →
    s.storageManager.lastUploadedFileModifiedLocalTime = g.mtime →
      acceptedFiles s.hist ≠ [] → g ∈ acceptedFiles s.hist

/-- The completion of the upload in flight will be taken for the request it belongs to. -/
def CompletionIsAccounted (s : Storing) : Prop :=
  ∀ u, s.storage.uploadHttpSession = some u → ∃ r, s.uploadRequest = some r ∧
    r.completed = false ∧
      (r.isPlain = true → u.kind = .putFile ∧ r.newFileModifiedLocalTime = u.file.mtime)

/-- As long as no upload is attempted while another one is in flight, the mark is true and no
completion is lost. -/
theorem mark_isTrue {s s' : DocumentBroker} {es : List (Nat × Event)} (hload : Loaded s)
    (hrun : run DocumentBroker.step s es = some s')
    (hC : Along (fun o _ => uploadsInTurn o) s'.hist) :
    MarkIsTrue s'.toStoring ∧ CompletionIsAccounted s'.toStoring := by
  have hi : FileInv s'.toStoring ∧ UploadInv s'.toStoring := by
    refine run_holds (I := fun x => FileInv x ∧ UploadInv x) ?_ hload hrun hC
      ⟨hload.fileInv, hload.uploadInv⟩
    intro x y h hC hi
    exact ⟨hi.1.change h, hi.2.change h hC hi.1⟩
  refine ⟨?_, hi.2.inFlight⟩
  intro g hg hmark hsome
  exact hi.2.uploaded hi.1 hg hmark hsome

/-- A version is saved and uploaded. -/
def savedOnce : List (Nat × Event) :=
  [(10, .modifyActivity), (11, .modifiedStatus true), (12, .manualSave 1 ""),
    (13, .kitFinishes 2 .success (some true) ⟨200, 20, 1⟩), (14, .saveResponse 2 1)]

/-- A second version is saved before the upload of the first has been answered. -/
def savedTwice : List (Nat × Event) :=
  savedOnce ++ [(15, .modifyActivity), (16, .manualSave 1 ""),
    (17, .kitFinishes 8 .success (some true) ⟨300, 30, 2⟩), (18, .saveResponse 8 1)]

def uploadAccepted (time : Nat) : Nat × Event :=
  (time, .uploadReply ⟨200, some ⟨"t1", 0, 0⟩⟩ false)

/-- A document that one session edits. -/
def editedDocument : DocumentBroker := .load .standard ⟨100, 10, 0⟩ "t0" [.editor 1] []

theorem mark_isTrue_savedOnce : ∃ s', run DocumentBroker.step editedDocument
      (savedOnce ++ [uploadAccepted 15]) = some s' ∧ acceptedFiles s'.hist ≠ [] ∧
    MarkIsTrue s'.toStoring ∧ CompletionIsAccounted s'.toStoring := by
  obtain ⟨s', hrun, hC, hacc⟩ := run_reaches DocumentBroker.step editedDocument
    (savedOnce ++ [uploadAccepted 15])
    (P := fun s => Along (fun o _ => uploadsInTurn o) s.hist ∧ acceptedFiles s.hist ≠ [])
    (by decide +kernel)
  exact ⟨s', hrun, hacc, mark_isTrue (DocumentBroker.load_loaded _ _ _ _ _) hrun hC⟩

/-- The second version is taken for uploaded when the host has accepted the first. -/
theorem mark_not_true_savedTwice : ¬ ∀ (s s' : DocumentBroker) (es : List (Nat × Event)),
    Loaded s → run DocumentBroker.step s es = some s' →
      MarkIsTrue s'.toStoring ∧ CompletionIsAccounted s'.toStoring := by
  intro h
  obtain ⟨s', hrun, hup, hmark, hacc⟩ := run_reaches DocumentBroker.step editedDocument
    (savedTwice ++ [uploadAccepted 19])
    (P := fun s => s.files.uploading = some ⟨300, 30, 2⟩ ∧
      s.storageManager.lastUploadedFileModifiedLocalTime = 300 ∧
        acceptedFiles s.hist = [⟨200, 20, 1⟩]) (by decide +kernel)
  have hg := (h _ _ _ (DocumentBroker.load_loaded _ _ _ _ _) hrun).1 _ hup hmark
    (by rw [hacc]; exact List.cons_ne_nil _ _)
  rw [hacc] at hg
  revert hg
  decide

end CoolOnline.Broker
