import CoolOnline.Broker.DocumentStatus
import CoolOnline.Broker.Runs

/-! # A broker from its first download on

The document is downloaded for a session that joins, the Kit loads it, and from then on the
broker handles its events. The calls for the activities are recorded as they are made.
-/

namespace CoolOnline.Broker

/-- A broker with the status it was last assigned, whether it has a storage and whether that has
downloaded the document, and the calls for its activities so far. -/
structure Lifecycle where
  broker : DocumentBroker
  assigned : Status
  hasStorage : Bool
  isDownloaded : Bool
  calls : List ActivityCall

/-- What brings a document into being; a document is first loaded for one of its sessions. -/
inductive LifeEvent
  | download (creates downloads : Bool)
  | loaded (session : Nat)
  | handled (now : Nat) (e : Event)

namespace Lifecycle

variable (t : Lifecycle)

/-- `markToDestroy` overwrites the status. -/
def status : Status := if t.broker.docState.markedToDestroy then .destroying else t.assigned

/-- `setStatus`, when its assertion is not compiled in. -/
def setStatus (newStatus : Status) : Lifecycle :=
  { t with
    broker :=
      { t.broker with docState := { t.broker.docState with markedToDestroy := false } }
    assigned := newStatus }

/-- The part of `download` that creates the storage, if it can. -/
def createStorage (creates : Bool) : Lifecycle :=
  if t.hasStorage then t else { t.setStatus .downloading with hasStorage := creates }

/-- `doDownloadDocument`, which fetches the file, if it can. -/
def doDownloadDocument (downloads : Bool) : Lifecycle :=
  if t.hasStorage && !t.isDownloaded && downloads then
    { t.setStatus .loading with isDownloaded := true }
  else t

def download (creates downloads : Bool) : Lifecycle :=
  if t.broker.docState.markedToDestroy then t
  else (t.createStorage creates).doDownloadDocument downloads

/-- `setLoaded`. -/
def setLoaded : Lifecycle :=
  if t.broker.isLoaded then t
  else
    let t := t.setStatus .live
    { t with broker := { t.broker with docState := { t.broker.docState with loaded := true } } }

/-- The Kit has loaded the document, first of all for this session. -/
def viewLoaded (session : Nat) : Lifecycle :=
  let sessions := updateSession t.broker.sessions session fun x => { x with state := .live }
  let t :=
    { t with
      broker :=
        { t.broker with
          sessions := sessions
          docState := { t.broker.docState with interactive := false } } }
  t.setLoaded

/-- A session joins once the document has been downloaded. -/
def allows : Event → Bool
  | .join _ _ _ => t.isDownloaded
  | _ => true

/-- The broker as it is when it handles an event. -/
def ticked (now : Nat) : DocumentBroker := t.broker.storing fun s => s.tick now

def step : LifeEvent → Option Lifecycle
  | .download creates downloads => some (t.download creates downloads)
  | .loaded session =>
      if t.isDownloaded ∧ (findSession t.broker.sessions session).any fun x => x.state = .loading
      then some (t.viewLoaded session)
      else none
  | .handled now e =>
      if t.allows e then
        (t.broker.step (now, e)).map fun broker =>
          { t with broker := broker, calls := t.calls ++ (t.ticked now).callsOf e }
      else none

/-- The outcomes of uploads come in turn, and the document is not loaded once it is marked to be
destroyed. -/
def inTurn : LifeEvent → Bool
  | .download _ _ => true
  | .loaded _ => t.broker.isLoaded || !t.broker.docState.markedToDestroy
  | .handled now e => (t.ticked now).comesInTurn e

/-- Nothing has been done yet. -/
structure Fresh : Prop where
  activity : t.broker.activity = .none
  uploading : t.broker.isAsyncUploading = false
  checkFileInfo : t.broker.checkFileInfo = none
  loaded : t.broker.docState.loaded = false
  marked : t.broker.docState.markedToDestroy = false
  assigned : t.assigned = .none
  hasStorage : t.hasStorage = false
  isDownloaded : t.isDownloaded = false
  calls : t.calls = []

/-- Activities are started when there is none and ended by what belongs to them, and no upload is
in flight while the timestamp is being synchronized. -/
structure NoOverlap : Prop where
  follows : Follows .none t.calls t.broker.activity
  inTurn : ∀ call ∈ t.calls, call.inTurn = true
  syncing : t.broker.activity = .syncFileTimestamp → t.broker.isAsyncUploading = false

instance : Decidable (∀ call ∈ t.calls, call.inTurn = true) := List.decidableBAll _ _

/-- The status never decreases. -/
def Ascends (t : Lifecycle) (_ : LifeEvent) (t' : Lifecycle) : Prop :=
  t.status.rank ≤ t'.status.rank

/-- How far the assigned status can have come. -/
structure StatusInv : Prop where
  live : t.assigned.rank ≤ 3
  storage : t.hasStorage = false → t.assigned.rank ≤ 1 ∧ t.isDownloaded = false
  downloaded : t.isDownloaded = false → t.assigned.rank ≤ 2

/-- What every step that comes in turn preserves. -/
structure LifeInv : Prop where
  overlap : t.NoOverlap
  activities : t.broker.ActivityInv
  status : t.StatusInv

variable {t} {t' : Lifecycle}

theorem status_rank_of_marked (h : t.broker.docState.markedToDestroy = true) :
    t.status.rank = 4 := by
  rw [status, if_pos h]
  rfl

theorem status_of_not_marked (h : t.broker.docState.markedToDestroy = false) :
    t.status = t.assigned := by
  rw [status, h, if_neg Bool.false_ne_true]

theorem Fresh.lifeInv (h : t.Fresh) : t.LifeInv where
  overlap := ⟨by rw [h.calls]; exact h.activity.symm, by rw [h.calls]; exact nofun,
    fun _ => h.uploading⟩
  activities := ⟨fun _ => h.uploading, by rw [h.checkFileInfo]; exact nofun⟩
  status := by
    constructor
    · rw [h.assigned]; decide
    · intro _; rw [h.assigned]; exact ⟨by decide, h.isDownloaded⟩
    · intro _; rw [h.assigned]; decide

/-! ## What one step does -/

/-- Broker and calls stay as they are, as far as the activities are concerned. -/
structure KeepsActivity (t t' : Lifecycle) : Prop where
  activity : t'.broker.activity = t.broker.activity
  uploading : t'.broker.isAsyncUploading = t.broker.isAsyncUploading
  checkFileInfo : t'.broker.checkFileInfo = t.broker.checkFileInfo
  calls : t'.calls = t.calls

theorem LifeInv.keeps (h : t.LifeInv) (hk : t.KeepsActivity t') (hs : t'.StatusInv) :
    t'.LifeInv where
  overlap := by
    refine ⟨?_, ?_, ?_⟩
    · rw [hk.calls, hk.activity]
      exact h.overlap.follows
    · rw [hk.calls]
      exact h.overlap.inTurn
    · rw [hk.activity, hk.uploading]
      exact h.overlap.syncing
  activities := by
    constructor
    · rw [hk.activity, hk.uploading]
      exact h.activities.syncing
    · rw [hk.activity, hk.checkFileInfo]
      exact h.activities.asking
  status := hs

theorem KeepsActivity.trans {t'' : Lifecycle} (h : t.KeepsActivity t')
    (h' : t'.KeepsActivity t'') : t.KeepsActivity t'' :=
  ⟨h'.activity.trans h.activity, h'.uploading.trans h.uploading,
    h'.checkFileInfo.trans h.checkFileInfo, h'.calls.trans h.calls⟩

theorem createStorage_keeps (creates : Bool) : t.KeepsActivity (t.createStorage creates) := by
  unfold createStorage
  split <;> exact ⟨rfl, rfl, rfl, rfl⟩

theorem doDownloadDocument_keeps (downloads : Bool) :
    t.KeepsActivity (t.doDownloadDocument downloads) := by
  unfold doDownloadDocument
  split <;> exact ⟨rfl, rfl, rfl, rfl⟩

theorem download_keeps (creates downloads : Bool) :
    t.KeepsActivity (t.download creates downloads) := by
  unfold download
  split
  · exact ⟨rfl, rfl, rfl, rfl⟩
  · exact (createStorage_keeps creates).trans (doDownloadDocument_keeps downloads)

/-- The status goes on, and can have come no further than it should. -/
structure Proceeds (t t' : Lifecycle) : Prop where
  inv : t'.StatusInv
  ascends : t.status.rank ≤ t'.status.rank

theorem createStorage_proceeds (creates : Bool) (h : t.StatusInv)
    (hm : t.broker.docState.markedToDestroy = false) : t.Proceeds (t.createStorage creates) := by
  unfold createStorage
  split
  · exact ⟨h, Nat.le_refl _⟩
  · rename_i hnone
    obtain ⟨hrank, hdown⟩ := h.storage (Bool.eq_false_iff.mpr hnone)
    have hstatus := status_of_not_marked hm
    constructor
    · exact ⟨Nat.le_of_ble_eq_true rfl, fun _ => ⟨Nat.le_refl 1, hdown⟩, fun _ => Nat.le_succ 1⟩
    · rw [hstatus]
      exact hrank

theorem doDownloadDocument_proceeds (downloads : Bool) (h : t.StatusInv)
    (hm : t.broker.docState.markedToDestroy = false) :
    t.Proceeds (t.doDownloadDocument downloads) := by
  unfold doDownloadDocument
  split
  · rename_i hdownloads
    simp only [Bool.and_eq_true, Bool.not_eq_true'] at hdownloads
    obtain ⟨⟨hstorage, hdown⟩, -⟩ := hdownloads
    have hstatus := status_of_not_marked hm
    constructor
    · refine ⟨Nat.le_succ 2, fun hnone => ?_, nofun⟩
      rw [show t.hasStorage = false from hnone] at hstorage
      cases hstorage
    · rw [hstatus]
      exact h.downloaded hdown
  · exact ⟨h, Nat.le_refl _⟩

theorem createStorage_marked (creates : Bool) (hm : t.broker.docState.markedToDestroy = false) :
    (t.createStorage creates).broker.docState.markedToDestroy = false := by
  unfold createStorage
  split
  · exact hm
  · rfl

theorem download_proceeds (creates downloads : Bool) (h : t.StatusInv) :
    t.Proceeds (t.download creates downloads) := by
  unfold download
  split
  · exact ⟨h, Nat.le_refl _⟩
  · rename_i hm
    have hm := Bool.eq_false_iff.mpr hm
    have hcreated := createStorage_proceeds creates h hm
    have hdown := doDownloadDocument_proceeds downloads hcreated.inv (createStorage_marked creates hm)
    exact ⟨hdown.inv, Nat.le_trans hcreated.ascends hdown.ascends⟩

theorem setLoaded_keeps : t.KeepsActivity t.setLoaded := by
  unfold setLoaded
  split <;> exact ⟨rfl, rfl, rfl, rfl⟩

theorem viewLoaded_keeps (session : Nat) : t.KeepsActivity (t.viewLoaded session) := by
  have hloaded := setLoaded_keeps (t :=
    { t with
      broker :=
        { t.broker with
          sessions := updateSession t.broker.sessions session fun x => { x with state := .live }
          docState := { t.broker.docState with interactive := false } } })
  exact ⟨hloaded.activity, hloaded.uploading, hloaded.checkFileInfo, hloaded.calls⟩

theorem viewLoaded_proceeds (session : Nat) (h : t.StatusInv) (hdown : t.isDownloaded = true)
    (hc : t.broker.isLoaded = true ∨ t.broker.docState.markedToDestroy = false) :
    t.Proceeds (t.viewLoaded session) := by
  unfold viewLoaded setLoaded
  dsimp only
  split
  · exact ⟨⟨h.live, h.storage, h.downloaded⟩, Nat.le_refl _⟩
  · rename_i hloaded
    have hm := hc.resolve_left hloaded
    constructor
    · refine ⟨Nat.le_refl 3, fun hnone => ?_, fun hnot => ?_⟩
      · rw [(h.storage hnone).2] at hdown
        cases hdown
      · rw [show t.isDownloaded = false from hnot] at hdown
        cases hdown
    · rw [status_of_not_marked hm]
      exact h.live

/-- The broker handles an event in turn. -/
theorem handled_inv {now : Nat} {e : Event} {broker : DocumentBroker} (h : t.LifeInv)
    (hs : t.broker.step (now, e) = some broker) (hc : (t.ticked now).comesInTurn e = true) :
    LifeInv { t with broker := broker, calls := t.calls ++ (t.ticked now).callsOf e } := by
  obtain ⟨-, hhandle⟩ := Option.ite_none_right_eq_some.mp hs
  have hinv : (t.ticked now).ActivityInv := ⟨h.activities.syncing, h.activities.asking⟩
  have hdone := DocumentBroker.handle_handled hinv hc hhandle
  constructor
  · constructor
    · exact h.overlap.follows.append hdone.follows
    · intro call hcall
      rcases List.mem_append.mp hcall with hcall | hcall
      · exact h.overlap.inTurn call hcall
      · exact hdone.inTurn call hcall
    · exact hdone.inv.syncing
  · exact hdone.inv
  · exact ⟨h.status.live, h.status.storage, h.status.downloaded⟩

/-- Whether a document is marked to be destroyed is not taken back by an event. -/
theorem handled_ascends {now : Nat} {e : Event} {broker : DocumentBroker} {calls : List ActivityCall}
    (h : t.LifeInv) (hs : t.broker.step (now, e) = some broker)
    (hc : (t.ticked now).comesInTurn e = true) :
    t.Ascends (.handled now e) { t with broker := broker, calls := calls } := by
  obtain ⟨-, hhandle⟩ := Option.ite_none_right_eq_some.mp hs
  have hinv : (t.ticked now).ActivityInv := ⟨h.activities.syncing, h.activities.asking⟩
  have hdone := DocumentBroker.handle_handled hinv hc hhandle
  unfold Ascends
  cases hmarked : t.broker.docState.markedToDestroy with
  | true =>
      have hmarked' := hdone.marked hmarked
      rw [status_rank_of_marked hmarked,
        status_rank_of_marked (t := { t with broker := broker, calls := calls }) hmarked']
  | false =>
      rw [status_of_not_marked hmarked]
      unfold status
      split
      · exact Nat.le_succ_of_le h.status.live
      · exact Nat.le_refl _

theorem step_inv {e : LifeEvent} (h : t.LifeInv) (hs : stepIf step inTurn t e = some t') :
    t'.LifeInv ∧ t.Ascends e t' := by
  obtain ⟨hc, hs⟩ := (stepIf_eq_some step).mp hs
  cases e with
  | download creates downloads =>
      cases hs
      have hproceeds := download_proceeds creates downloads h.status
      exact ⟨h.keeps (download_keeps creates downloads) hproceeds.inv, hproceeds.ascends⟩
  | loaded session =>
      obtain ⟨⟨hdown, -⟩, hs⟩ := Option.ite_none_right_eq_some.mp hs
      cases hs
      have hloads : t.broker.isLoaded = true ∨ t.broker.docState.markedToDestroy = false := by
        simpa [inTurn] using hc
      have hproceeds := viewLoaded_proceeds session h.status hdown hloads
      exact ⟨h.keeps (viewLoaded_keeps session) hproceeds.inv, hproceeds.ascends⟩
  | handled now e =>
      obtain ⟨-, hs⟩ := Option.ite_none_right_eq_some.mp hs
      obtain ⟨broker, hbroker, rfl⟩ := Option.map_eq_some_iff.mp hs
      exact ⟨handled_inv h hbroker hc, handled_ascends h hbroker hc⟩

/-- In a run in which the outcomes of uploads come in turn, activities never overlap, and the
status never decreases. -/
theorem activities_never_overlap {t₀ : Lifecycle} (h : t₀.Fresh) {es : List LifeEvent}
    (hrun : run (stepIf step inTurn) t₀ es = some t) :
    t.NoOverlap ∧ AllSteps (stepIf step inTurn) Ascends t₀ es := by
  have hinv : t.LifeInv := run_invariant _ (fun _ _ _ hs hinv => (step_inv hinv hs).1) hrun h.lifeInv
  refine ⟨hinv.overlap, allSteps_of_invariant _ (I := LifeInv) ?_ h.lifeInv es⟩
  intro s e s' hinv hs
  exact (step_inv hinv hs).symm

/-- A broker that has been created with the default configuration. -/
def newDocument : Lifecycle where
  broker :=
    let s := DocumentBroker.load .standard ⟨1, 10, 0⟩ "t0" [] []
    { s with docState := { s.docState with loaded := false } }
  assigned := .none
  hasStorage := false
  isDownloaded := false
  calls := []

theorem newDocument_fresh : newDocument.Fresh := ⟨rfl, rfl, rfl, rfl, rfl, rfl, rfl, rfl, rfl⟩

/-- The document is downloaded and loaded for an editor, modified and saved, and its upload is in
flight. -/
def loadedAndSaved : List LifeEvent :=
  [.download true true, .handled 2 (.join (.editor 1) "t0" 10), .loaded 1,
    .handled 3 .modifyActivity, .handled 4 (.manualSave 1 ""),
    .handled 5 (.kitFinishes 3 .success none ⟨2, 11, 1⟩), .handled 6 (.saveResponse 3 1)]

theorem activities_never_overlap_saved : ∃ t, run (stepIf step inTurn) newDocument
      (loadedAndSaved ++ [.handled 7 (.uploadReply ⟨200, none⟩ false)]) = some t ∧
    t.status = .live ∧ t.NoOverlap ∧
    AllSteps (stepIf step inTurn) Ascends newDocument
      (loadedAndSaved ++ [.handled 7 (.uploadReply ⟨200, none⟩ false)]) := by
  obtain ⟨t, hrun, hlive⟩ := run_reaches (stepIf step inTurn) newDocument
    (loadedAndSaved ++ [.handled 7 (.uploadReply ⟨200, none⟩ false)])
    (P := fun t => t.status = .live) (by decide +kernel)
  exact ⟨t, hrun, hlive, activities_never_overlap newDocument_fresh hrun⟩

/-- An upload fails while the next save is under way, and ends it. -/
theorem activities_overlap_failed : ¬ ∀ (t₀ t : Lifecycle) (es : List LifeEvent), t₀.Fresh →
    run step t₀ es = some t → t.NoOverlap ∧ AllSteps step Ascends t₀ es := by
  intro h
  obtain ⟨t, hrun, hcall⟩ := run_reaches step newDocument
    (loadedAndSaved ++ [.handled 7 .modifyActivity, .handled 8 (.manualSave 1 ""),
      .handled 9 (.uploadReply ⟨500, none⟩ false)])
    (P := fun t => .ended .upload .save ∈ t.calls) (by decide +kernel)
  have hturn := (h _ _ _ newDocument_fresh hrun).1.inTurn _ hcall
  cases hturn

end Lifecycle

end CoolOnline.Broker
