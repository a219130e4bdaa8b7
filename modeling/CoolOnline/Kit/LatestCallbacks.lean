import CoolOnline.Library.History
import CoolOnline.Library.LatestQueue
import CoolOnline.Kit.Callbacks

/-! # The latest callbacks of the Kit's queue

`putCallback` replaces the queued cursor and status callbacks of a key, as a queue that keeps the
latest of each key does. States of `.uno:` commands are not replaced.
-/

namespace CoolOnline.Kit

open StringVector COOLProtocol LatestQueue

/-- What the callbacks of which only the latest counts are about. -/
inductive CallbackKey
  | ofType (view : Int) (type : CallbackType)
  | ofViewId (view : Int) (type : CallbackType) (viewId : Payload)
  | ofCommand (view : Int) (command : Payload)
deriving DecidableEq, Repr

/-- The command of a payload `.uno:Name=value`, except `.uno:ModifiedStatus`. -/
def stateCommand (payload : Payload) : Option Payload :=
  if Word.uno.isPrefixOf payload && payload.contains '=' then
    some (payload.takeWhile (· != '=')) |>.filter (· != Word.modifiedStatus)
  else none

def CallbackType.isCursor : CallbackType → Bool
  | .invalidateVisibleCursor | .cursorVisible | .statusIndicatorSetValue
  | .documentSizeChanged | .cellCursor => true
  | _ => false

def CallbackType.isViewCallback : CallbackType → Bool
  | .invalidateViewCursor | .cellViewCursor | .viewCursorVisible => true
  | _ => false

section Keys

variable (extractViewId : Payload → Option Payload)

def callbackKey (c : Callback) : Option CallbackKey :=
  match c.type with
  | .invalidateVisibleCursor | .cursorVisible | .statusIndicatorSetValue
  | .documentSizeChanged | .cellCursor => some (.ofType c.view c.type)
  | .invalidateViewCursor | .cellViewCursor | .viewCursorVisible =>
      (extractViewId c.payload).map (.ofViewId c.view c.type)
  | .stateChanged => (stateCommand c.payload).map (.ofCommand c.view)
  | .invalidateTiles | .other _ => none

/-- An invalidation that meets none of the queued ones of its part and mode, so that nothing is
merged. -/
def mergesNothing (view : Int) (msg : Invalidation) (it : Callback) : Bool :=
  match queuedInvalidation view msg it with
  | none => true
  | some queued =>
      !msg.covers queued && !(msg.intersects queued && (msg.join queued).isReasonable)

/-- A callback that the queue keeps as it should: no state of a command that is queued, no
invalidation to merge, and no view cursor without a view. -/
def isPlain (callbacks : List Callback) (c : Callback) : Bool :=
  match c.type with
  | .stateChanged =>
      (callbackKey extractViewId c).isNone ||
        callbacks.all fun it => callbackKey extractViewId it != callbackKey extractViewId c
  | .invalidateTiles =>
      match extractRectangle (tokenize c.payload ' ') with
      | none => true
      | some msg => callbacks.all (mergesNothing c.view msg)
  | .invalidateViewCursor | .cellViewCursor | .viewCursorVisible =>
      (extractViewId c.payload).isSome
  | _ => true

variable {extractViewId}

theorem isObsoleteState_eq_false (view : Int) (unoCommand : Payload) (it : Callback) :
    isObsoleteState view unoCommand it = false := by
  by_contra h
  simp only [isObsoleteState, Bool.not_eq_false, Bool.and_eq_true, beq_iff_eq,
    decide_eq_true_eq] at h
  obtain ⟨⟨⟨-, hlength⟩, hpayload⟩, -⟩ := h
  rw [hpayload] at hlength
  omega

/-- Where nothing merges the walk leaves the queue as it is. -/
theorem mergeInvalidations_of_mergesNothing {view : Int} {msg : Invalidation}
    {callbacks : List Callback} (h : ∀ it ∈ callbacks, mergesNothing view msg it = true) :
    mergeInvalidations view msg false callbacks = (callbacks, msg, false) := by
  induction callbacks with
  | nil => rfl
  | cons it rest ih =>
      have hrest := ih fun e he => h e (by simp [he])
      have hit := h it (by simp)
      simp only [mergesNothing] at hit
      cases hqueued : queuedInvalidation view msg it with
      | none => simp [mergeInvalidations, hrest, hqueued]
      | some queued =>
          simp only [hqueued, Bool.and_eq_true, Bool.not_eq_true', Bool.and_eq_false_iff] at hit
          obtain ⟨hcovers, hjoin⟩ := hit
          simp only [mergeInvalidations, hrest, hqueued, hcovers, Bool.false_eq_true, if_false]
          rcases hjoin with hintersects | hreasonable
          · simp [hintersects]
          · simp [hreasonable]

theorem callbackKey_of_cursor {c : Callback} (htype : c.type.isCursor = true) :
    callbackKey extractViewId c = some (.ofType c.view c.type) := by
  cases hc : c.type <;> simp_all [CallbackType.isCursor, callbackKey]

theorem callbackKey_of_viewCallback {c : Callback} {viewId : Payload}
    (htype : c.type.isViewCallback = true) (hid : extractViewId c.payload = some viewId) :
    callbackKey extractViewId c = some (.ofViewId c.view c.type viewId) := by
  cases hc : c.type <;> simp_all [CallbackType.isViewCallback, callbackKey]

theorem callbackKey_eq_ofViewId {c : Callback} {view : Int} {type : CallbackType}
    {viewId : Payload} (h : callbackKey extractViewId c = some (.ofViewId view type viewId)) :
    c.type = type ∧ c.view = view ∧ extractViewId c.payload = some viewId := by
  cases hc : c.type <;> simp_all [callbackKey]

theorem callbackKey_eq_ofType {c : Callback} {view : Int} {type : CallbackType}
    (h : callbackKey extractViewId c = some (.ofType view type)) :
    c.type = type ∧ c.view = view := by
  cases hc : c.type <;> simp_all [callbackKey]

/-- Queued view cursors have views. -/
def HasViews (extractViewId : Payload → Option Payload) (callbacks : List Callback) : Prop :=
  ∀ it ∈ callbacks, it.type.isViewCallback = true → (extractViewId it.payload).isSome = true

/-- The loop over view cursors erases the first one with the key. -/
theorem removeViewCallback_eq_eraseP {view : Int} {type : CallbackType} {viewId : Payload}
    {callbacks : List Callback} (htype : type.isViewCallback = true)
    (hviews : HasViews extractViewId callbacks) :
    removeViewCallback extractViewId view type viewId callbacks =
      some (callbacks.eraseP fun it =>
        callbackKey extractViewId it == some (.ofViewId view type viewId)) := by
  induction callbacks with
  | nil => rfl
  | cons it rest ih =>
      have hrest := ih fun e he => hviews e (by simp [he])
      simp only [removeViewCallback, hrest]
      by_cases hother : it.type ≠ type ∨ it.view ≠ view
      · have hkey : callbackKey extractViewId it ≠ some (.ofViewId view type viewId) := by
          intro h
          obtain ⟨ht, hv, -⟩ := callbackKey_eq_ofViewId h
          exact hother.elim (fun hne => hne ht) fun hne => hne hv
        simp [hother, hkey]
      · obtain ⟨ht, hv⟩ := not_or.mp hother
        have ht : it.type = type := not_not.mp ht
        have hv : it.view = view := not_not.mp hv
        obtain ⟨queued, hqueued⟩ :=
          Option.isSome_iff_exists.mp (hviews it (by simp) (by rw [ht]; exact htype))
        have hkey := callbackKey_of_viewCallback (ht ▸ htype) hqueued
        rw [ht, hv] at hkey
        by_cases hid : viewId = queued
        · simp [ht, hv, hqueued, hkey, hid]
        · have hne : ¬ queued = viewId := fun h => hid h.symm
          simp [ht, hv, hqueued, hkey, hid, hne]

/-! ## What a callback put elides -/

section Elide

variable {callbacks : List Callback} {view : Int} {type : CallbackType} {payload : Payload}

theorem elide_cursor (hne : callbacks ≠ []) (htype : type.isCursor = true) :
    elideDuplicateCallback extractViewId callbacks view type payload =
      some (callbacks.eraseP fun it => it.type == type && it.view == view, false) := by
  cases type <;> simp_all [CallbackType.isCursor, elideDuplicateCallback]

theorem elide_viewCallback (hne : callbacks ≠ []) (htype : type.isViewCallback = true) :
    elideDuplicateCallback extractViewId callbacks view type payload =
      (extractViewId payload).bind fun viewId =>
        (removeViewCallback extractViewId view type viewId callbacks).map fun left =>
          (left, false) := by
  cases type <;> simp_all [CallbackType.isViewCallback, elideDuplicateCallback]

theorem elide_stateChanged (hne : callbacks ≠ []) :
    elideDuplicateCallback extractViewId callbacks view .stateChanged payload =
      some (callbacks, false) := by
  have hkept (unoCommand : Payload) :
      callbacks.eraseP (isObsoleteState view unoCommand) = callbacks :=
    List.eraseP_of_forall_not fun it _ => by simp [isObsoleteState_eq_false]
  simp [elideDuplicateCallback, hne, hkept]

theorem elide_invalidateTiles (hne : callbacks ≠ [])
    (hplain : isPlain extractViewId callbacks ⟨view, .invalidateTiles, payload⟩ = true) :
    elideDuplicateCallback extractViewId callbacks view .invalidateTiles payload =
      some (callbacks, false) := by
  simp only [isPlain] at hplain
  cases hmsg : extractRectangle (tokenize payload ' ') with
  | none => simp [elideDuplicateCallback, hne, hmsg]
  | some msg =>
      simp only [hmsg, List.all_eq_true] at hplain
      simp [elideDuplicateCallback, hne, hmsg, mergeInvalidations_of_mergesNothing hplain]

/-- A plain callback elides the queued one of its key. -/
theorem elide_eq_filter {c : Callback} (hne : callbacks ≠ [])
    (hone : (callbacks.filterMap (callbackKey extractViewId)).Nodup)
    (hviews : HasViews extractViewId callbacks)
    (hplain : isPlain extractViewId callbacks c = true) :
    elideDuplicateCallback extractViewId callbacks c.view c.type c.payload =
      some (callbacks.filter (staysFor (callbackKey extractViewId) c), false) := by
  obtain ⟨view, type, payload⟩ := c
  by_cases hcursor : type.isCursor = true
  · have hkey : callbackKey extractViewId ⟨view, type, payload⟩ = some (.ofType view type) :=
      callbackKey_of_cursor hcursor
    rw [elide_cursor hne hcursor, eraseP_eq_filter hkey hone]
    intro it _
    simp only [Bool.and_eq_true, beq_iff_eq]
    constructor
    · rintro ⟨htype, rfl⟩
      rw [callbackKey_of_cursor (by rw [htype]; exact hcursor), htype]
    · exact callbackKey_eq_ofType
  by_cases hview : type.isViewCallback = true
  · have hsome : (extractViewId payload).isSome = true := by
      cases type <;> simp_all [CallbackType.isViewCallback, isPlain]
    obtain ⟨viewId, hid⟩ := Option.isSome_iff_exists.mp hsome
    have hkey := callbackKey_of_viewCallback (c := ⟨view, type, payload⟩) hview hid
    rw [elide_viewCallback hne hview, hid, Option.bind_some,
      removeViewCallback_eq_eraseP hview hviews, Option.map_some,
      eraseP_eq_filter hkey hone fun it _ => by simp]
  cases type with
  | stateChanged =>
      rw [elide_stateChanged hne, filter_staysFor_of_forall]
      intro it hit hkey
      simp only [isPlain, Bool.or_eq_true, Option.isNone_iff_eq_none, List.all_eq_true] at hplain
      rcases hplain with hnone | hall
      · exact hnone
      · exact absurd hkey (by simpa using hall it hit)
  | invalidateTiles =>
      rw [elide_invalidateTiles hne hplain, filter_staysFor_of_none _ rfl]
  | other type =>
      rw [filter_staysFor_of_none _ rfl]
      simp [elideDuplicateCallback, hne]
  | _ => simp_all [CallbackType.isCursor, CallbackType.isViewCallback]

/-- A plain callback is put as into a queue that keeps the latest of each key. -/
theorem putCallback_eq_post {c : Callback}
    (hone : (callbacks.filterMap (callbackKey extractViewId)).Nodup)
    (hviews : HasViews extractViewId callbacks)
    (hplain : isPlain extractViewId callbacks c = true) :
    putCallback extractViewId callbacks c.view c.type c.payload =
      some (post (callbackKey extractViewId) callbacks c) := by
  by_cases hne : callbacks = []
  · simp [putCallback, elideDuplicateCallback, hne, post]
  · rw [putCallback, elide_eq_filter hne hone hviews hplain]
    rfl

end Elide

end Keys

/-! ## Runs -/

inductive CallbackOp
  | put (view : Int) (type : CallbackType) (payload : Payload)
  | get
deriving DecidableEq, Repr

namespace CallbackOp

section Step

variable (extractViewId : Payload → Option Payload)

/-- A callback that cannot be put is lost. -/
def step (l : Log Callback) : CallbackOp → Option (Log Callback)
  | .put view type payload =>
      some { l with
        queue := (putCallback extractViewId l.queue view type payload).getD l.queue
        posted := l.posted ++ [⟨view, type, payload⟩] }
  | .get =>
      match getCallback l.queue with
      | none => some l
      | some (front, queue) => some { l with queue := queue, fetched := l.fetched ++ [front] }

def plain (l : Log Callback) : CallbackOp → Bool
  | .put view type payload => isPlain extractViewId l.queue ⟨view, type, payload⟩
  | .get => true

end Step

variable {extractViewId : Payload → Option Payload}

theorem hasViews_post {callbacks : List Callback} {c : Callback}
    (hviews : HasViews extractViewId callbacks)
    (hplain : isPlain extractViewId callbacks c = true) :
    HasViews extractViewId (post (callbackKey extractViewId) callbacks c) := by
  intro it hit hview
  simp only [post, List.mem_append, List.mem_filter, List.mem_singleton] at hit
  rcases hit with ⟨hit, -⟩ | rfl
  · exact hviews it hit hview
  · cases htype : it.type <;> simp_all [CallbackType.isViewCallback, isPlain]

theorem step_keepsLatest {l l' : Log Callback} {op : CallbackOp}
    (hplain : op.plain extractViewId l = true) (h : op.step extractViewId l = some l')
    (hl : KeepsLatest (callbackKey extractViewId) l ∧ HasViews extractViewId l.queue) :
    KeepsLatest (callbackKey extractViewId) l' ∧ HasViews extractViewId l'.queue := by
  obtain ⟨hlatest, hviews⟩ := hl
  cases op with
  | put view type payload =>
      cases h
      have hput := putCallback_eq_post hlatest.one hviews hplain
      simp only at hput
      simp only [hput, Option.getD_some]
      exact ⟨hlatest.post _, hasViews_post hviews hplain⟩
  | get =>
      simp only [step] at h
      cases hqueue : l.queue with
      | nil =>
          simp only [hqueue, getCallback] at h
          cases h
          exact ⟨hlatest, hviews⟩
      | cons front queue =>
          simp only [hqueue, getCallback] at h
          cases h
          refine ⟨hlatest.fetch hqueue, fun it hit => hviews it ?_⟩
          rw [hqueue]
          exact List.mem_cons_of_mem _ hit

/-- While the callbacks put are plain, the queue keeps the latest callback of each key, and all
callbacks without a key in order. -/
theorem callbacks_keepLatest {ops : List CallbackOp} {l : Log Callback}
    (hrun : run (stepIf (step extractViewId) (plain extractViewId)) ⟨[], [], []⟩ ops = some l) :
    KeepsLatest (callbackKey extractViewId) l := by
  refine (run_invariant _ (I := fun l => KeepsLatest (callbackKey extractViewId) l ∧
    HasViews extractViewId l.queue) ?_ hrun ⟨KeepsLatest.empty, by simp [HasViews]⟩).1
  intro l op l' hstep hl
  obtain ⟨hplain, hstep⟩ := (stepIf_eq_some _).mp hstep
  exact step_keepsLatest hplain hstep hl

/-- The `viewId` of a payload that starts with it. -/
def leadingViewId (payload : Payload) : Option Payload :=
  let start := "\x7b \"viewId\": \"".toList
  if start.isPrefixOf payload then some ((payload.drop start.length).takeWhile (· != '"')) else none

/-- Cursors of two views, one of which moves, and two modified states. -/
def cursorMoves : List CallbackOp :=
  [.put 0 .invalidateViewCursor "\x7b \"viewId\": \"1\" \x7d".toList,
    .put 0 .stateChanged ".uno:ModifiedStatus=true".toList,
    .put 0 .invalidateViewCursor "\x7b \"viewId\": \"2\" \x7d".toList,
    .put 0 .invalidateViewCursor "\x7b \"viewId\": \"1\" \x7d".toList,
    .put 0 .stateChanged ".uno:ModifiedStatus=true".toList, .get,
    .put 0 .stateChanged ".uno:Bold=true".toList]

theorem callbacks_keepLatest_cursorMoves :
    ∃ l, run (stepIf (step leadingViewId) (plain leadingViewId)) ⟨[], [], []⟩ cursorMoves = some l ∧
      l.queue.length = 4 ∧ KeepsLatest (callbackKey leadingViewId) l := by
  obtain ⟨l, hrun, hlength⟩ := run_reaches (stepIf (step leadingViewId) (plain leadingViewId))
    ⟨[], [], []⟩ cursorMoves (P := fun l => l.queue.length = 4) (by decide +kernel)
  exact ⟨l, hrun, hlength, callbacks_keepLatest hrun⟩

/-- Two states of one command are queued. -/
theorem callbacks_keep_two_states : ¬ ∀ (extractViewId : Payload → Option Payload)
    (ops : List CallbackOp) (l : Log Callback),
    run (step extractViewId) ⟨[], [], []⟩ ops = some l →
      KeepsLatest (callbackKey extractViewId) l := by
  intro h
  obtain ⟨l, hrun, htwo⟩ := run_reaches (step leadingViewId) ⟨[], [], []⟩
    [.put 0 .stateChanged ".uno:Bold=true".toList, .put 0 .stateChanged ".uno:Bold=false".toList]
    (P := fun l => ¬ (l.queue.filterMap (callbackKey leadingViewId)).Nodup) (by decide +kernel)
  exact htwo (h _ _ _ hrun).one

end CallbackOp

end CoolOnline.Kit
