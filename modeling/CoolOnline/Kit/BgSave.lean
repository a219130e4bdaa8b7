import CoolOnline.Library.History

/-! # Background saves of a Kit document

The modified state a `Document` tracks while forked processes save it: `forkToSave` and the
functions around `_modified` of `kit/Kit.cpp`, and `BgSaveParentWebSocketHandler` of
`kit/KitWebSocket.cpp`. The core is known by its undo stack, its modified flag and the
`.uno:Modified` commands posted to it.
-/

namespace CoolOnline.Kit

inductive ModifiedState
  | modified
  | unModifiedButSaving
  | unModified
deriving DecidableEq, Repr

/-- The document in the core: the edits it holds, newest first, and where its modified flag was
last cleared. -/
structure Core where
  content : List Nat
  lastEdit : Nat
  mark : List Nat
  modified : Bool
  commands : List Bool
deriving DecidableEq, Repr

namespace Core

variable (c : Core)

def edit : Core :=
  { c with content := (c.lastEdit + 1) :: c.content, lastEdit := c.lastEdit + 1, modified := true }

/-- Undoing back to the mark clears the flag. -/
def undo : Core := { c with content := c.content.tail, modified := c.content.tail != c.mark }

/-- The posted command `.uno:Modified` is executed. -/
def setModified (modified : Bool) : Core :=
  { c with mark := if modified then c.mark else c.content, modified := modified }

def postCommand (modified : Bool) : Core := { c with commands := c.commands ++ [modified] }

/-- The core once all posted commands are executed. -/
def settled : Core := c.commands.foldl setModified { c with commands := [] }

theorem settled_postCommand (modified : Bool) :
    (c.postCommand modified).settled = c.settled.setModified modified := by
  simp [settled, postCommand]

theorem settled_of_nil (h : c.commands = []) : c.settled = c := by
  cases c
  cases h
  rfl

theorem foldl_setModified_content (commands : List Bool) :
    (commands.foldl setModified c).content = c.content := by
  induction commands generalizing c with
  | nil => rfl
  | cons modified commands ih => exact ih (c.setModified modified)

@[simp] theorem settled_content : c.settled.content = c.content :=
  foldl_setModified_content _ c.commands

end Core

/-- A background save: what its fork contains, and what its parent's handler knows of it. -/
structure BgSave where
  id : Nat
  content : List Nat
  saveCompleted : Bool
  succeeded : Bool
  connected : Bool
deriving DecidableEq, Repr

/-- A `ModifiedStatus` that wsd was sent, and whether the document held unsaved changes. -/
structure StatusSent where
  modified : Bool
  unsaved : Bool
deriving DecidableEq, Repr

/-- Saves newest first, and the notifications sent to wsd, newest first. -/
structure Document where
  core : Core
  modified : ModifiedState
  isBgSaveDisabled : Bool
  saves : List BgSave
  sent : List StatusSent
deriving DecidableEq, Repr

/-- What a handler makes of the save that is still running under an id. -/
def BgSave.complete (id : Nat) (succeeded : Bool) (save : BgSave) : BgSave :=
  if save.id = id ∧ save.saveCompleted = false then
    { save with saveCompleted := true, succeeded := succeeded }
  else save

def BgSave.disconnect (id : Nat) (save : BgSave) : BgSave :=
  if save.id = id then { save with connected := false } else save

namespace BgSave

variable (save : BgSave) (id : Nat) (succeeded : Bool)

@[simp] theorem complete_content : (save.complete id succeeded).content = save.content := by
  unfold complete
  split <;> rfl

theorem complete_of_completed (h : save.saveCompleted = true) :
    save.complete id succeeded = save := by
  simp [complete, h]

theorem complete_running (h : save.saveCompleted = false) :
    save.complete save.id succeeded =
      { save with saveCompleted := true, succeeded := succeeded } := by
  simp [complete, h]

/-- A save that fails is not one that has succeeded. -/
theorem complete_failed_succeeded (h : save.succeeded = true → save.saveCompleted = true) :
    (save.complete id false).succeeded = save.succeeded := by
  cases hok : save.succeeded with
  | false =>
      unfold complete
      split
      · rfl
      · exact hok
  | true => rw [save.complete_of_completed id false (h hok), hok]

theorem complete_saveCompleted (h : save.saveCompleted = true) :
    (save.complete id succeeded).saveCompleted = true := by
  rw [save.complete_of_completed id succeeded h, h]

@[simp] theorem disconnect_content : (save.disconnect id).content = save.content := by
  unfold disconnect
  split <;> rfl

@[simp] theorem disconnect_saveCompleted :
    (save.disconnect id).saveCompleted = save.saveCompleted := by
  unfold disconnect
  split <;> rfl

@[simp] theorem disconnect_succeeded : (save.disconnect id).succeeded = save.succeeded := by
  unfold disconnect
  split <;> rfl

end BgSave

namespace Document

variable (d : Document)

/-- The content of the newest fork whose save has succeeded; nothing was edited before. -/
def savedContent : List Nat := ((d.saves.find? BgSave.succeeded).map BgSave.content).getD []

/-- The document holds an edit or an undo that no successful save contains. -/
def unsaved : Bool := d.core.content != d.savedContent

def notifyModifiedStatus (modified : Bool) : Document :=
  { d with sent := ⟨modified, d.unsaved⟩ :: d.sent }

def postForceModifiedCommand (modified : Bool) : Document :=
  { d with core := d.core.postCommand modified }

def forceDocUnmodifiedForBgSave : Document :=
  if d.modified = .modified then
    { d with modified := .unModifiedButSaving }.postForceModifiedCommand false
  else d

def updateModifiedOnFailedBgSave : Document :=
  if d.modified = .unModifiedButSaving then
    { d with modified := .modified }.postForceModifiedCommand true
  else d

def notifySyntheticUnmodifiedState : Document :=
  if d.modified = .unModifiedButSaving then
    { d with modified := .unModified }.notifyModifiedStatus false
  else d

/-- `trackDocModifiedState`, with whether the notification is filtered. -/
def trackDocModifiedState (modified : Bool) : Document × Bool :=
  match d.modified with
  | .modified => (if modified then d else { d with modified := .unModified }, false)
  | .unModifiedButSaving =>
      if modified then ({ d with modified := .modified }, false)
      -- ignore being notified of our own force unmodification
      else (d, true)
  | .unModified => (if modified then { d with modified := .modified } else d, false)

/-- `LOK_CALLBACK_STATE_CHANGED` with `.uno:ModifiedStatus`. -/
def stateChanged (modified : Bool) : Document :=
  let tracked := d.trackDocModifiedState modified
  if tracked.2 then tracked.1 else tracked.1.notifyModifiedStatus modified

/-- The core has changed, and notifies a change of its flag. -/
def coreChanges (core : Core) : Document :=
  let changed := core.modified != d.core.modified
  let d := { d with core := core }
  if changed then d.stateChanged core.modified else d

def disableBgSave : Document := { d with isBgSaveDisabled := true }

/-- `forkToSave`, when it does fork. -/
def forkToSave : Option Document :=
  if d.isBgSaveDisabled then none
  else
    some { d with
      saves := ⟨d.saves.length, d.core.content, false, false, true⟩ :: d.saves
      }.forceDocUnmodifiedForBgSave

def completeSave (id : Nat) (succeeded : Bool) : Document :=
  { d with saves := d.saves.map (BgSave.complete id succeeded) }

/-- `reportFailedSave`. -/
def reportFailedSave (id : Nat) : Document :=
  (d.disableBgSave.completeSave id false).updateModifiedOnFailedBgSave

/-- The result of the save: `unocommandresult:` for `.uno:Save`. -/
def saveResult (id : Nat) (success : Bool) : Document :=
  let d := d.completeSave id success
  if success then d.notifySyntheticUnmodifiedState
  else d.updateModifiedOnFailedBgSave.disableBgSave

/-- `onDisconnect`: a crash is reported even after the save has completed. -/
def onDisconnect (save : BgSave) (crashed : Bool) : Document :=
  let d := { d with saves := d.saves.map (BgSave.disconnect save.id) }
  if crashed || !save.saveCompleted then d.reportFailedSave save.id else d

/-- The save that is known to its handler by `id`. -/
def findSave (id : Nat) : Option BgSave :=
  d.saves.find? fun save => save.id = id ∧ save.connected

end Document

inductive Event
  | edit
  | undo
  | notify
  | execCommand
  | forkToSave
  | saveResult (id : Nat) (success : Bool)
  | jsdialog (id : Nat)
  | saveError (id : Nat)
  | disconnect (id : Nat) (crashed : Bool)
deriving DecidableEq, Repr

namespace Document

variable (d : Document)

/-- What happens at an event, or nothing when it cannot happen. -/
def step : Event → Option Document
  | .edit => some (d.coreChanges d.core.edit)
  | .undo => if d.core.content = [] then none else some (d.coreChanges d.core.undo)
  | .notify => some (d.stateChanged d.core.modified)
  | .execCommand =>
      match d.core.commands with
      | [] => none
      | modified :: rest =>
          some { d with core := { d.core.setModified modified with commands := rest } }
  | .forkToSave => d.forkToSave
  | .saveResult id success =>
      (d.findSave id).bind fun save =>
        if save.saveCompleted then none else some (d.saveResult id success)
  | .jsdialog id => (d.findSave id).map fun _ => d.reportFailedSave id
  | .saveError id => (d.findSave id).map fun _ => d.disableBgSave
  | .disconnect id crashed => (d.findSave id).map fun save => d.onDisconnect save crashed

/-- A document that has just been loaded. -/
def load : Document where
  core := ⟨[], 0, [], false, []⟩
  modified := .unModified
  isBgSaveDisabled := false
  saves := []
  sent := []

/-- While there are changes that no successful save contains, the document is modified, and so
is the core once it has executed what was posted, or a save that contains them is running. -/
def KeepsUnsaved : Prop :=
  d.unsaved = true →
    (d.modified = .modified ∧ d.core.settled.modified = true) ∨
      (d.modified = .unModifiedButSaving ∧
        ∃ save ∈ d.saves, save.saveCompleted = false ∧ save.content = d.core.content)

/-- No `ModifiedStatus=false` was sent while there were unsaved changes. -/
def SentTruth : Prop := ∀ status ∈ d.sent, status.modified = false → status.unsaved = false

/-- Posted commands are executed before anything else happens; no save is forked while another
one is running; and undoing reaches the mark only when what was there is saved. -/
def savesInTurn : Event → Bool
  | .execCommand => true
  | .forkToSave => d.core.commands.isEmpty && d.saves.all BgSave.saveCompleted
  | .undo =>
      d.core.commands.isEmpty &&
        (d.core.content.tail != d.core.mark || d.core.mark == d.savedContent)
  | _ => d.core.commands.isEmpty

/-- What the modified state stands for while saves are forked in turn. -/
structure ForkInv : Prop where
  older : ∀ save ∈ d.saves.tail, save.saveCompleted = true
  succeeded : ∀ save ∈ d.saves, save.succeeded = true → save.saveCompleted = true
  atMark : d.core.settled.modified = false → d.core.content = d.core.settled.mark
  kit : d.modified = .modified ↔ d.core.settled.modified = true
  running : ∀ save ∈ d.saves, save.saveCompleted = false → d.core.settled.mark = save.content
  saving : d.modified = .unModifiedButSaving → ∃ save ∈ d.saves, save.saveCompleted = false
  saved : d.modified = .unModified → d.core.content = d.savedContent
  sent : d.SentTruth

namespace ForkInv

variable {d : Document}

theorem core_false (hi : d.ForkInv) (h : d.modified ≠ .modified) :
    d.core.settled.modified = false :=
  Bool.eq_false_iff.mpr fun ht => h (hi.kit.mpr ht)

theorem keepsUnsaved (hi : d.ForkInv) : d.KeepsUnsaved := by
  intro hun
  cases hm : d.modified with
  | modified => exact .inl ⟨rfl, hi.kit.mp hm⟩
  | unModifiedButSaving =>
      obtain ⟨save, hmem, hrun⟩ := hi.saving hm
      have hmark := hi.atMark (hi.core_false (by simp [hm]))
      exact .inr ⟨rfl, save, hmem, hrun, by rw [hmark, hi.running save hmem hrun]⟩
  | unModified =>
      simp [unsaved, hi.saved hm] at hun

/-! ## Notifications and edits -/

theorem sent_cons {sent : List StatusSent} {status : StatusSent}
    (h : ∀ x ∈ sent, x.modified = false → x.unsaved = false)
    (hs : status.modified = false → status.unsaved = false) :
    ∀ x ∈ status :: sent, x.modified = false → x.unsaved = false := by
  intro x hx
  rcases List.mem_cons.mp hx with rfl | hx
  · exact hs
  · exact h x hx

/-- The core notifies the flag it has. -/
theorem notify (hi : d.ForkInv) (h : d.core.commands = []) :
    (d.stateChanged d.core.modified).ForkInv := by
  have hset := d.core.settled_of_nil h
  cases hm : d.modified with
  | modified =>
      have hcore : d.core.modified = true := by
        rw [← hset]
        exact hi.kit.mp hm
      simp only [stateChanged, trackDocModifiedState, hm, hcore]
      exact { hi with sent := sent_cons hi.sent nofun }
  | unModifiedButSaving =>
      have hcore : d.core.modified = false := by
        rw [← hset]
        exact hi.core_false (by simp [hm])
      simp only [stateChanged, trackDocModifiedState, hm, hcore]
      exact hi
  | unModified =>
      have hcore : d.core.modified = false := by
        rw [← hset]
        exact hi.core_false (by simp [hm])
      simp only [stateChanged, trackDocModifiedState, hm, hcore]
      exact { hi with sent := sent_cons hi.sent fun _ => by simp [unsaved, hi.saved hm] }

/-- An edit or undo keeps the mark, and clears the flag only at a mark that is saved. -/
theorem coreChanges (hi : d.ForkInv) (h : d.core.commands = []) {core : Core}
    (hc : core.commands = []) (hmark : core.mark = d.core.mark)
    (hclear : core.modified = false →
      core.content = core.mark ∧ (d.core.modified = true → core.mark = d.savedContent)) :
    (d.coreChanges core).ForkInv := by
  have hset := d.core.settled_of_nil h
  have hset' := core.settled_of_nil hc
  have hrun : ∀ save ∈ d.saves, save.saveCompleted = false → core.settled.mark = save.content := by
    rw [hset', hmark, ← hset]
    exact hi.running
  have hmod : core.settled.modified = false → core.content = core.settled.mark := by
    rw [hset']
    exact fun hf => (hclear hf).1
  unfold Document.coreChanges
  dsimp only
  cases hnew : core.modified with
  | true =>
      cases hold : d.core.modified with
      | true =>
          have hkit : d.modified = .modified := hi.kit.mpr (by rw [hset, hold])
          refine ⟨hi.older, hi.succeeded, hmod, ?_, hrun, hi.saving, ?_, hi.sent⟩
          · simp [hset', hnew, hkit]
          · simp [hkit]
      | false =>
          have htrack : ({ d with core := core }.trackDocModifiedState true) =
              ({ d with core := core, modified := .modified }, false) := by
            unfold trackDocModifiedState
            cases d.modified <;> rfl
          simp only [stateChanged, htrack]
          exact ⟨hi.older, hi.succeeded, hmod, by simp [notifyModifiedStatus, hset', hnew], hrun,
            nofun, nofun, sent_cons hi.sent nofun⟩
  | false =>
      obtain ⟨hat, hsaved⟩ := hclear hnew
      cases hold : d.core.modified with
      | true =>
          have hkit : d.modified = .modified := hi.kit.mpr (by rw [hset, hold])
          have hcontent : core.content = d.savedContent := hat.trans (hsaved hold)
          simp only [stateChanged, trackDocModifiedState, hkit]
          refine ⟨hi.older, hi.succeeded, hmod, ?_, hrun, nofun, fun _ => hcontent, ?_⟩
          · simp [notifyModifiedStatus, hset', hnew]
          · refine sent_cons hi.sent fun _ => ?_
            show (core.content != d.savedContent) = false
            simpa using hcontent
      | false =>
          have hkit : d.modified ≠ .modified := by
            rw [ne_eq, hi.kit, hset, hold]
            simp
          have hsame : core.content = d.core.content := by
            rw [hat, hmark, hi.atMark (by rw [hset, hold]), hset]
          refine ⟨hi.older, hi.succeeded, hmod, ?_, hrun, hi.saving, ?_, hi.sent⟩
          · simp [hset', hnew, hkit]
          · intro hm
            exact hsame.trans (hi.saved hm)

theorem execCommand (hi : d.ForkInv) {modified : Bool} {rest : List Bool}
    (h : d.core.commands = modified :: rest) :
    { d with core := { d.core.setModified modified with commands := rest } }.ForkInv := by
  have hset : ({ d.core.setModified modified with commands := rest } : Core).settled =
      d.core.settled := by
    simp only [Core.settled, h]
    rfl
  exact ⟨hi.older, hi.succeeded, hset ▸ hi.atMark, hset ▸ hi.kit, hset ▸ hi.running, hi.saving,
    hi.saved, hi.sent⟩

/-! ## Saves -/

theorem forkToSave (hi : d.ForkInv) {d' : Document} (hall : d.saves.all BgSave.saveCompleted = true)
    (h : d.forkToSave = some d') : d'.ForkInv := by
  have hdone : ∀ save ∈ d.saves, save.saveCompleted = true := List.all_eq_true.mp hall
  unfold Document.forkToSave at h
  split at h
  · cases h
  · cases h
    have hold : ∀ save, save ∈ (⟨d.saves.length, d.core.content, false, false, true⟩ : BgSave) ::
        d.saves → save.saveCompleted = false → save.content = d.core.content := by
      intro save hs hrun
      rcases List.mem_cons.mp hs with rfl | hs
      · rfl
      · rw [hdone save hs] at hrun
        cases hrun
    have hsucc : ∀ save, save ∈ (⟨d.saves.length, d.core.content, false, false, true⟩ : BgSave) ::
        d.saves → save.succeeded = true → save.saveCompleted = true := by
      intro save hs hok
      rcases List.mem_cons.mp hs with rfl | hs
      · cases hok
      · exact hdone save hs
    unfold forceDocUnmodifiedForBgSave
    cases hm : d.modified with
    | modified =>
        simp only [if_true]
        have hset := d.core.settled_postCommand false
        refine ⟨hdone, hsucc, ?_, ?_, ?_, ?_, nofun, hi.sent⟩
        · intro _
          show d.core.content = (d.core.postCommand false).settled.mark
          simp [hset, Core.setModified]
        · show ModifiedState.unModifiedButSaving = .modified ↔
            (d.core.postCommand false).settled.modified = true
          simp [hset, Core.setModified]
        · intro save hs hrun
          show (d.core.postCommand false).settled.mark = save.content
          simp [hset, Core.setModified, hold save hs hrun]
        · exact fun _ => ⟨_, List.mem_cons_self, rfl⟩
    | unModifiedButSaving =>
        obtain ⟨save, hs, hrun⟩ := hi.saving hm
        rw [hdone save hs] at hrun
        cases hrun
    | unModified =>
        simp only [reduceCtorEq, if_false]
        have hat := hi.atMark (hi.core_false (by simp [hm]))
        refine ⟨hdone, hsucc, hi.atMark, ?_, ?_, ?_, ?_, hi.sent⟩
        · show ModifiedState.unModified = .modified ↔ d.core.settled.modified = true
          rw [← hm]
          exact hi.kit
        · intro save hs hrun
          exact hat.symm.trans (hold save hs hrun).symm
        · intro hm'
          cases hm'
        · intro _
          exact hi.saved hm

/-- The saved content is that of the same save, when the outcomes stay the same. -/
theorem savedContent_map {f : BgSave → BgSave} {saves : List BgSave}
    (hsucceeded : ∀ save ∈ saves, (f save).succeeded = save.succeeded)
    (hcontent : ∀ save ∈ saves, (f save).content = save.content) :
    ((saves.map f).find? BgSave.succeeded).map BgSave.content =
      (saves.find? BgSave.succeeded).map BgSave.content := by
  induction saves with
  | nil => rfl
  | cons save saves ih =>
      have hrest := ih (fun x hx => hsucceeded x (List.mem_cons_of_mem save hx))
        fun x hx => hcontent x (List.mem_cons_of_mem save hx)
      have hs := hsucceeded save List.mem_cons_self
      have hc := hcontent save List.mem_cons_self
      cases hok : save.succeeded <;> simp_all

/-- What a handler knows of its connection does not matter. -/
theorem disconnect (hi : d.ForkInv) (id : Nat) :
    { d with saves := d.saves.map (BgSave.disconnect id) }.ForkInv := by
  have hsaved : { d with saves := d.saves.map (BgSave.disconnect id) }.savedContent =
      d.savedContent :=
    congrArg (Option.getD · []) (savedContent_map (by simp) (by simp))
  refine ⟨?_, ?_, hi.atMark, hi.kit, ?_, ?_, ?_, hi.sent⟩
  · simpa [← List.map_tail] using hi.older
  · simpa using hi.succeeded
  · simpa using hi.running
  · simpa using hi.saving
  · intro hm
    rw [hsaved]
    exact hi.saved hm

/-- A failed save leaves the document and the core modified. -/
theorem fail (hi : d.ForkInv) (id : Nat) :
    (d.completeSave id false).updateModifiedOnFailedBgSave.ForkInv := by
  have hsucceeded : ∀ save ∈ d.saves, (save.complete id false).succeeded = save.succeeded :=
    fun save hs => save.complete_failed_succeeded id (hi.succeeded save hs)
  have hsaved : (d.completeSave id false).savedContent = d.savedContent :=
    congrArg (Option.getD · []) (savedContent_map hsucceeded (by simp))
  have holder : ∀ save ∈ (d.saves.map (BgSave.complete id false)).tail,
      save.saveCompleted = true := by
    rw [← List.map_tail]
    intro save hs
    obtain ⟨x, hx, rfl⟩ := List.mem_map.mp hs
    exact x.complete_saveCompleted id false (hi.older x hx)
  have hsucc : ∀ save ∈ d.saves.map (BgSave.complete id false),
      save.succeeded = true → save.saveCompleted = true := by
    intro save hs hok
    obtain ⟨x, hx, rfl⟩ := List.mem_map.mp hs
    rw [hsucceeded x hx] at hok
    exact x.complete_saveCompleted id false (hi.succeeded x hx hok)
  have hrun : ∀ save ∈ d.saves.map (BgSave.complete id false),
      save.saveCompleted = false → d.core.settled.mark = save.content := by
    intro save hs hrun
    obtain ⟨x, hx, rfl⟩ := List.mem_map.mp hs
    rw [x.complete_content]
    apply hi.running x hx
    by_contra hdone
    rw [x.complete_saveCompleted id false (Bool.not_eq_false _ ▸ hdone)] at hrun
    cases hrun
  unfold updateModifiedOnFailedBgSave
  by_cases hm : d.modified = .unModifiedButSaving
  · rw [if_pos (show (d.completeSave id false).modified = _ from hm)]
    have hset := d.core.settled_postCommand true
    refine ⟨holder, hsucc, ?_, ?_, ?_, nofun, nofun, hi.sent⟩
    · intro hf
      have hf' : (d.core.postCommand true).settled.modified = false := hf
      rw [hset] at hf'
      cases hf'
    · show ModifiedState.modified = .modified ↔ (d.core.postCommand true).settled.modified = true
      simp [hset, Core.setModified]
    · show ∀ save ∈ d.saves.map (BgSave.complete id false), save.saveCompleted = false →
        (d.core.postCommand true).settled.mark = save.content
      rw [hset]
      exact hrun
  · rw [if_neg (show (d.completeSave id false).modified ≠ _ from hm)]
    refine ⟨holder, hsucc, hi.atMark, hi.kit, hrun, fun h => absurd h hm, ?_, hi.sent⟩
    intro hm'
    rw [hsaved]
    exact hi.saved hm'

/-- What a successful save contains is saved. -/
theorem succeed (hi : d.ForkInv) {save : BgSave} (hs : save ∈ d.saves)
    (hrun : save.saveCompleted = false) :
    (d.completeSave save.id true).notifySyntheticUnmodifiedState.ForkInv := by
  obtain ⟨rest, hsaves⟩ : ∃ rest, d.saves = save :: rest := by
    cases hd : d.saves with
    | nil => simp [hd] at hs
    | cons head rest =>
        rw [hd] at hs
        rcases List.mem_cons.mp hs with rfl | hmem
        · exact ⟨rest, rfl⟩
        · rw [hi.older save (by rw [hd]; exact hmem)] at hrun
          cases hrun
  have hdone : ∀ x ∈ rest, x.saveCompleted = true := by
    have hold := hi.older
    rwa [hsaves] at hold
  have hnew : (d.completeSave save.id true).saves =
      { save with saveCompleted := true, succeeded := true } :: rest := by
    simp only [completeSave, hsaves, List.map_cons, save.complete_running true hrun]
    congr 1
    conv_rhs => rw [← List.map_id rest]
    apply List.map_congr_left
    intro x hx
    exact x.complete_of_completed _ _ (hdone x hx)
  have hall : ∀ x ∈ (d.completeSave save.id true).saves, x.saveCompleted = true := by
    rw [hnew]
    intro x hx
    rcases List.mem_cons.mp hx with rfl | hx
    · rfl
    · exact hdone x hx
  have hsaved : (d.completeSave save.id true).savedContent = d.core.settled.mark := by
    rw [hi.running save hs hrun]
    simp [savedContent, hnew]
  have holder : ∀ x ∈ (d.completeSave save.id true).saves.tail, x.saveCompleted = true :=
    fun x hx => hall x (List.mem_of_mem_tail hx)
  have hnone : ∀ x ∈ (d.completeSave save.id true).saves, x.saveCompleted = false →
      d.core.settled.mark = x.content := by
    intro x hx hf
    rw [hall x hx] at hf
    cases hf
  unfold notifySyntheticUnmodifiedState
  by_cases hm : d.modified = .unModifiedButSaving
  · rw [if_pos (show (d.completeSave save.id true).modified = _ from hm)]
    have hat : d.core.content = (d.completeSave save.id true).savedContent :=
      (hi.atMark (hi.core_false (by simp [hm]))).trans hsaved.symm
    refine ⟨holder, fun x hx _ => hall x hx, hi.atMark, ?_, hnone, nofun, fun _ => hat, ?_⟩
    · show ModifiedState.unModified = .modified ↔ d.core.settled.modified = true
      simp [hi.core_false (by simp [hm] : d.modified ≠ .modified)]
    · apply sent_cons hi.sent
      intro _
      show (d.core.content != (d.completeSave save.id true).savedContent) = false
      simpa using hat
  · rw [if_neg (show (d.completeSave save.id true).modified ≠ _ from hm)]
    refine ⟨holder, fun x hx _ => hall x hx, hi.atMark, hi.kit, hnone, fun h => absurd h hm, ?_,
      hi.sent⟩
    intro hm'
    rw [hsaved]
    have hm'' : d.modified = .unModified := hm'
    exact hi.atMark (hi.core_false (by simp [hm'']))

theorem reportFailedSave (hi : d.ForkInv) (id : Nat) : (d.reportFailedSave id).ForkInv := by
  have hdisabled : d.disableBgSave.ForkInv :=
    ⟨hi.older, hi.succeeded, hi.atMark, hi.kit, hi.running, hi.saving, hi.saved, hi.sent⟩
  exact hdisabled.fail id

theorem onDisconnect (hi : d.ForkInv) (save : BgSave) (crashed : Bool) :
    (d.onDisconnect save crashed).ForkInv := by
  unfold Document.onDisconnect
  have hd := hi.disconnect save.id
  split
  · exact hd.reportFailedSave save.id
  · exact hd

theorem findSave_mem {id : Nat} {save : BgSave} (h : d.findSave id = some save) :
    save ∈ d.saves ∧ save.id = id := by
  have hp := List.find?_some h
  simp only [decide_eq_true_eq, Bool.decide_and, Bool.and_eq_true] at hp
  exact ⟨List.mem_of_find?_eq_some h, hp.1⟩

theorem step (hi : d.ForkInv) {e : Event} {d' : Document} (hC : d.savesInTurn e = true)
    (h : d.step e = some d') : d'.ForkInv := by
  cases e with
  | edit =>
      have hnil : d.core.commands = [] := by simpa [savesInTurn] using hC
      cases h
      exact hi.coreChanges hnil hnil rfl nofun
  | undo =>
      simp only [savesInTurn, Bool.and_eq_true, List.isEmpty_iff] at hC
      simp only [Document.step] at h
      split at h
      · cases h
      · cases h
        refine hi.coreChanges hC.1 hC.1 rfl ?_
        intro hclear
        have hat : d.core.content.tail = d.core.mark := by
          simpa [Core.undo] using hclear
        have hsaved : d.core.mark = d.savedContent := by
          simpa [hat] using hC.2
        exact ⟨hat, fun _ => hsaved⟩
  | notify =>
      cases h
      exact hi.notify (by simpa [savesInTurn] using hC)
  | execCommand =>
      simp only [Document.step] at h
      split at h
      · cases h
      · rename_i hcommands
        cases h
        exact hi.execCommand hcommands
  | forkToSave =>
      simp only [savesInTurn, Bool.and_eq_true] at hC
      exact hi.forkToSave hC.2 h
  | saveResult id success =>
      obtain ⟨save, hfind, h⟩ := Option.bind_eq_some_iff.mp h
      obtain ⟨hmem, rfl⟩ := findSave_mem hfind
      split at h
      · cases h
      · rename_i hrun
        cases h
        cases success with
        | true => exact hi.succeed hmem (Bool.eq_false_iff.mpr hrun)
        | false =>
            have hf := hi.fail save.id
            exact ⟨hf.older, hf.succeeded, hf.atMark, hf.kit, hf.running, hf.saving, hf.saved,
              hf.sent⟩
  | jsdialog id =>
      obtain ⟨save, -, rfl⟩ := Option.map_eq_some_iff.mp h
      exact hi.reportFailedSave id
  | saveError id =>
      obtain ⟨save, -, rfl⟩ := Option.map_eq_some_iff.mp h
      exact ⟨hi.older, hi.succeeded, hi.atMark, hi.kit, hi.running, hi.saving, hi.saved, hi.sent⟩
  | disconnect id crashed =>
      obtain ⟨save, -, rfl⟩ := Option.map_eq_some_iff.mp h
      exact hi.onDisconnect save crashed

theorem load : Document.load.ForkInv := by
  refine ⟨?_, ?_, ?_, ?_, ?_, ?_, ?_, ?_⟩ <;> simp [Document.load, Core.settled, SentTruth,
    savedContent]

end ForkInv

/-- While saves are forked in turn, no unsaved change is hidden, from the document, the core or
wsd. -/
theorem unsaved_kept {es : List Event} {d : Document}
    (hrun : run (stepIf step savesInTurn) load es = some d) : d.KeepsUnsaved ∧ d.SentTruth := by
  have hi : d.ForkInv := by
    refine run_invariant (stepIf step savesInTurn) (I := ForkInv) ?_ hrun ForkInv.load
    intro s e s' hs hi
    obtain ⟨hC, hstep⟩ := (stepIf_eq_some _).mp hs
    exact hi.step hC hstep
  exact ⟨hi.keepsUnsaved, hi.sent⟩

/-- A save fails while the document is edited on. -/
theorem unsaved_kept_failed : ∃ d, run (stepIf step savesInTurn) load
      [.edit, .forkToSave, .execCommand, .edit, .saveResult 0 false] = some d ∧
    d.unsaved = true ∧ d.KeepsUnsaved ∧ d.SentTruth := by
  obtain ⟨d, hrun, hun⟩ := run_reaches (stepIf step savesInTurn) load
    [.edit, .forkToSave, .execCommand, .edit, .saveResult 0 false]
    (P := fun d => d.unsaved = true) (by decide +kernel)
  exact ⟨d, hrun, hun, unsaved_kept hrun⟩

/-- The first of two saves succeeds: wsd is told that the document is unmodified, although the
second one, with the last edit, is still running, and nothing remembers it when that one fails. -/
theorem unsaved_hidden_overlapping : ¬ ∀ (es : List Event) (d : Document),
    run step load es = some d → d.KeepsUnsaved ∧ d.SentTruth := by
  intro h
  obtain ⟨d, hrun, hun, hm⟩ := run_reaches step load
    [.edit, .forkToSave, .execCommand, .edit, .forkToSave, .execCommand, .saveResult 0 true,
      .saveResult 1 false]
    (P := fun d => d.unsaved = true ∧ d.modified = .unModified) (by decide +kernel)
  rcases (h _ _ hrun).1 hun with ⟨hm', -⟩ | ⟨hm', -⟩
  · rw [hm] at hm'
    cases hm'
  · rw [hm] at hm'
    cases hm'

end Document

end CoolOnline.Kit
