import CoolOnline.Browser.ContiguousSlices
import CoolOnline.Library.History
import Mathlib.Data.List.Induction

/-! # The callbacks of the tile manager's transactions

What is passed to `endTransaction` is called when the bitmaps of the transaction are there. The
callbacks are kept in `transactionCallbacks`, and what calls them is the last reply of a worker that
brings a bitmap, the last promise of bitmaps, or an error.
-/

namespace CoolOnline.Browser.TileManager

variable {ι : Type} {m m' : TileManager ι}

/-! ## What the callbacks depend on -/

/-- The part of the state in which callbacks and tasks are counted. -/
structure Calls (ι : Type) where
  inTransaction : Nat
  workers : List (TileWorker ι)
  nPendingWorkerTasks : Nat
  transactionCallbacks : List Nat
  called : List Nat
  bitmapPromises : List (List (PendingDelta × ι))

def calls (m : TileManager ι) : Calls ι :=
  ⟨m.inTransaction, m.workers, m.nPendingWorkerTasks, m.transactionCallbacks, m.called,
    m.bitmapPromises⟩

section Tiles

theorem calls_foldl {α : Type} {f : TileManager ι → α → TileManager ι}
    (h : ∀ m a, (f m a).calls = m.calls) (l : List α) (m : TileManager ι) :
    (l.foldl f m).calls = m.calls := by
  induction l generalizing m with
  | nil => rfl
  | cons a l ih => rw [List.foldl_cons, ih, h]

@[simp] theorem calls_createTile (m : TileManager ι) (coords : TileCoordData) :
    (m.createTile coords).calls = m.calls := by
  rw [createTile]
  split_ifs <;> rfl

@[simp] theorem calls_reclaimTileBitmapMemory (m : TileManager ι) (key : Key) :
    (m.reclaimTileBitmapMemory key).calls = m.calls := by
  rw [reclaimTileBitmapMemory]
  split
  · rfl
  · split_ifs <;> rfl

@[simp] theorem calls_removeTile (m : TileManager ι) (key : Key) :
    (m.removeTile key).calls = m.calls := by
  rw [removeTile]
  split_ifs
  · exact calls_reclaimTileBitmapMemory m key
  · rfl

@[simp] theorem calls_removeAllTiles (m : TileManager ι) : m.removeAllTiles.calls = m.calls :=
  calls_foldl calls_removeTile _ _

@[simp] theorem calls_trimDeltas (lowDeltaMemory : Nat) (keys : List Key) (totalSize : Nat)
    (m : TileManager ι) : (trimDeltas lowDeltaMemory keys totalSize m).calls = m.calls := by
  induction keys generalizing totalSize m with
  | nil => rfl
  | cons key keys ih =>
      rw [trimDeltas]
      split_ifs
      · rfl
      · split
        · exact ih totalSize m
        · split_ifs
          · rw [ih]
            exact calls_reclaimTileBitmapMemory m key
          · exact ih totalSize m

theorem calls_removeDistant (m : TileManager ι) (key : Key) : (m.removeDistant key).calls = m.calls := by
  rw [removeDistant]
  split_ifs
  · exact calls_removeTile m key
  · rfl

@[simp] theorem calls_trimMemory (m : TileManager ι) (high low : Nat) :
    (m.trimMemory high low).calls = m.calls := by
  rw [trimMemory]
  split_ifs
  · exact calls_trimDeltas _ _ _ m
  · rfl

@[simp] theorem calls_trimTiles (m : TileManager ι) (tileCount high low : Nat) :
    (m.trimTiles tileCount high low).calls = m.calls := by
  rw [trimTiles]
  split_ifs
  · exact calls_foldl calls_removeDistant _ m
  · rfl

@[simp] theorem calls_garbageCollect (m : TileManager ι) (discardAll : Bool) :
    (m.garbageCollect discardAll).calls = m.calls := by
  rw [garbageCollect]
  split_ifs <;> rw [calls_trimTiles, calls_trimMemory]

@[simp] theorem calls_freeLastTile (m : TileManager ι) : m.freeLastTile.calls = m.calls := by
  rw [freeLastTile]
  split
  · split_ifs
    · exact calls_reclaimTileBitmapMemory m _
    · rfl
  · rfl

@[simp] theorem calls_setBitmapOnTile (m : TileManager ι) (key : Key) (bitmap : ι) :
    (m.setBitmapOnTile key bitmap).calls = m.calls := by
  rw [setBitmapOnTile]
  split
  · rfl
  · split_ifs
    · rfl
    · exact calls_freeLastTile m
    · exact calls_freeLastTile m

@[simp] theorem calls_handleBitmap (m : TileManager ι) (x : PendingDelta × ι) :
    (m.handleBitmap x).calls = m.calls := by
  rw [handleBitmap]
  split
  · rfl
  · dsimp only
    split
    · exact calls_setBitmapOnTile m _ _
    · split_ifs <;> exact calls_setBitmapOnTile m _ _

@[simp] theorem calls_rehydrateTile (m : TileManager ι) (key : Key) (wireMessage : Bool) :
    (m.rehydrateTile key wireMessage).calls = m.calls := by
  rw [rehydrateTile]
  split
  · rfl
  · split_ifs
    · dsimp only
      split <;> rfl
    · dsimp only
      split <;> rfl
    · rfl

@[simp] theorem calls_makeTileCurrent (m : TileManager ι) (key : Key) :
    (m.makeTileCurrent key).calls = m.calls :=
  calls_rehydrateTile _ key false

@[simp] theorem calls_tileForMsg (m : TileManager ι) (coords : TileCoordData) (distance : Rat) :
    (m.tileForMsg coords distance).calls = m.calls := by
  rw [tileForMsg]
  split_ifs
  · rfl
  · exact calls_createTile m coords

@[simp] theorem calls_onTileMsg (m : TileManager ι) (coords : TileCoordData) (distance : Rat)
    (wireId : Nat) (img : Option TileImage) :
    (m.onTileMsg coords distance wireId img).calls = m.calls := by
  rw [onTileMsg]
  dsimp only
  split
  · exact calls_tileForMsg m coords distance
  · rename_i tile htile
    have hqueued : ∀ (m : TileManager ι) (wireIds : List Nat),
        ({ m with queuedProcessed := wireIds } : TileManager ι).calls = m.calls := fun _ _ => rfl
    have hrehydrate : ∀ (m : TileManager ι) (key : Key),
        (if tile.distanceFromView = 0 then m.rehydrateTile key true else m).calls = m.calls := by
      intro m key
      split_ifs
      · exact calls_rehydrateTile m key true
      · rfl
    rw [hqueued, hrehydrate]
    split
    · split_ifs
      · exact calls_tileForMsg m coords distance
      · exact calls_tileForMsg m coords distance
    · split_ifs
      · exact calls_tileForMsg m coords distance
      · exact calls_tileForMsg m coords distance

@[simp] theorem calls_reclaimGraphicsMemory (m : TileManager ι) :
    m.reclaimGraphicsMemory.calls = m.calls := by
  apply calls_foldl
  intro m key
  rw [calls_reclaimTileBitmapMemory]
  split_ifs <;> rfl

@[simp] theorem calls_rehydrateCurrentTile (m : TileManager ι) :
    m.rehydrateCurrentTile.calls = m.calls := by
  rw [rehydrateCurrentTile]
  split
  · rfl
  · exact calls_rehydrateTile _ _ false

@[simp] theorem calls_invalidateTile (m : TileManager ι) (key : Key) (wireId : Nat) :
    (m.invalidateTile key wireId).calls = m.calls := by
  rw [invalidateTile]
  split
  · rfl
  · split_ifs
    · rfl
    · rfl
    · exact calls_removeTile m key

end Tiles

/-! ## Callbacks that are called once -/

end CoolOnline.Browser.TileManager

namespace CoolOnline.Browser

/-- The messages that the main thread waits for a reply to. -/
def TileWorker.tasks {ι : Type} (w : TileWorker ι) : Nat :=
  w.inbox.length + w.replies.length + w.errors

namespace TileManager

variable {ι : Type} {m m' : TileManager ι}

def Calls.tasks (c : Calls ι) : Nat := (c.workers.map TileWorker.tasks).sum

/-- The callback that is passed by an event. -/
def Event.passed : Event → List Nat
  | .endTransaction callback => callback.toList
  | _ => []

/-- Every callback is called once, and none waits when nothing goes on. -/
structure CallsOnce (m : TileManager ι) (passed : List Nat) : Prop where
  once : (m.called ++ m.transactionCallbacks).Perm passed
  idle : m.inTransaction = 0 → m.calls.tasks = 0 → m.bitmapPromises = [] →
    m.transactionCallbacks = []

/-- A transaction is only ended where one was begun. -/
def paired (m : TileManager ι) : Event → Bool
  | .endTransaction _ => m.inTransaction ≠ 0
  | _ => true

/-- There is a bitmap for a delta, or an image to make it from: the delta is not empty, and it is a
keyframe or its tile was not collected. -/
def yields (codec : Codec ι) (cache : OrderedMap Key (Option ι)) (tile : Tile ι)
    (x : PendingDelta × Option ι) : Bool :=
  !(x.1.wireMessage && !x.1.isKeyframe && decompressed tile x.1.ids = []) &&
    !(!x.1.isKeyframe && tile.decompressedId = 0) &&
    (x.2.isSome || (codec.decompress (cache.get x.1.coords.text).join x.1).isSome)

/-- A reply brings a bitmap for one of its tiles that is still there. -/
def bringsBitmap (codec : Codec ι) (cache : OrderedMap Key (Option ι)) :
    OrderedMap Key (Tile ι) → List (PendingDelta × Option ι) → Bool
  | _, [] => false
  | tiles, x :: deltas =>
      match tiles.get x.1.coords.key with
      | none => bringsBitmap codec cache tiles deltas
      | some tile =>
          yields codec cache tile x ||
            bringsBitmap codec cache
              (tiles.modify x.1.coords.key fun t => { t with decompressedId := x.1.ids.2 }) deltas

/-- Nothing is left that could call the callbacks after a reply with these deltas. -/
def strands (codec : Codec ι) (m : TileManager ι) (deltas : List (PendingDelta × Option ι)) : Bool :=
  m.bitmapPromises = [] && !bringsBitmap codec m.tileImageCache m.tiles deltas

/-- The callbacks are called: the end of a transaction finds none that wait for nothing, and is not
stopped by an error after which its callback is called again; the last reply brings a bitmap. -/
def callsBack (codec : Codec ι) (m : TileManager ι) : Event → Bool
  | .endTransaction callback =>
      if m.inTransaction ≠ 1 then true
      else if m.pendingDeltas = [] then
        m.transactionCallbacks = [] || m.nPendingWorkerTasks ≠ 0 || m.bitmapPromises ≠ []
      else if m.workers ≠ [] then !m.noBucket || callback.isNone
      else
        m.transactionCallbacks ++ callback.toList = [] ||
          !m.strands codec (m.pendingDeltas.map fun x => (x, none))
  | .workerReply i reply =>
      m.inTransaction ≠ 0 || m.nPendingWorkerTasks ≠ 1 || m.transactionCallbacks = [] ||
        !(((m.workers[i]?).bind fun w => w.replies[reply]?).any fun deltas =>
          m.strands codec (deltas.map fun (x, bitmap) => (x, some bitmap)))
  | _ => true

/-! ## Counting -/

variable {codec : Codec ι} {passed : List Nat}

theorem sum_map_set {α : Type} {l : List α} {i : Nat} {a : α} (h : l[i]? = some a) (b : α)
    (g : α → Nat) : ((l.set i b).map g).sum + g a = (l.map g).sum + g b := by
  induction l generalizing i with
  | nil => cases h
  | cons c l ih =>
      cases i with
      | zero =>
          cases h
          simp only [List.set_cons_zero, List.map_cons, List.sum_cons]
          omega
      | succ i =>
          have hrest := ih h
          simp only [List.set_cons_succ, List.map_cons, List.sum_cons]
          omega

/-- A message more for some of the workers. -/
theorem sum_map_mapIdx {α : Type} {f : Nat → α → α} {g : α → Nat} {p : Nat → Bool}
    (h : ∀ i a, g (f i a) = g a + if p i then 1 else 0) (l : List α) :
    ((l.mapIdx f).map g).sum = (l.map g).sum + ((List.range l.length).filter p).length := by
  induction l using List.reverseRecOn with
  | nil => rfl
  | append_singleton l a ih =>
      rw [List.mapIdx_concat, List.map_append, List.map_append, List.sum_append, List.sum_append, ih,
        List.length_append, List.length_singleton, List.range_succ, List.filter_append,
        List.length_append]
      simp only [List.map_cons, List.map_nil, List.sum_cons, List.sum_nil, h, List.filter_cons,
        List.filter_nil]
      split_ifs <;> simp only [List.length_cons, List.length_nil] <;> omega

/-- What holds in every state: whether a task is pending is known from their number. -/
structure Calls.Ok (c : Calls ι) (passed : List Nat) : Prop where
  once : (c.called ++ c.transactionCallbacks).Perm passed
  counted : c.nPendingWorkerTasks = c.tasks
  idle : c.inTransaction = 0 → c.nPendingWorkerTasks = 0 → c.bitmapPromises = [] →
    c.transactionCallbacks = []

theorem Calls.Ok.callsOnce (h : m.calls.Ok passed) : m.CallsOnce passed where
  once := h.once
  idle hin htasks hpromises := h.idle hin (h.counted.trans htasks) hpromises

/-- All callbacks are called if no task is pending. -/
def Calls.popIfDone (c : Calls ι) : Calls ι :=
  if c.nPendingWorkerTasks = 0 then
    { c with transactionCallbacks := [], called := c.called ++ c.transactionCallbacks.reverse }
  else c

theorem calls_endTransactionHandleBitmaps (m : TileManager ι) (deltas : List (PendingDelta × ι)) :
    (m.endTransactionHandleBitmaps deltas).calls = m.calls.popIfDone := by
  rw [endTransactionHandleBitmaps]
  have hbitmaps : (deltas.foldl handleBitmap m).calls = m.calls :=
    calls_foldl calls_handleBitmap deltas m
  generalize deltas.foldl handleBitmap m = m' at hbitmaps
  have hpaused : (if m'.visibleTilesReady then { m' with pausedForCoherency := false } else m').calls =
      m.calls := by
    rw [← hbitmaps]
    split_ifs <;> rfl
  rw [calls_garbageCollect]
  generalize (if m'.visibleTilesReady then { m' with pausedForCoherency := false } else m') = m₁
    at hpaused
  rw [← hpaused, Calls.popIfDone]
  show (if m₁.nPendingWorkerTasks = 0 then m₁.popCallbacks else m₁).calls =
    if m₁.nPendingWorkerTasks = 0 then _ else _
  split_ifs <;> rfl

/-- The callbacks that wait are called, and wait no longer. -/
theorem perm_popCallbacks {called callbacks : List Nat} (h : (called ++ callbacks).Perm passed) :
    ((called ++ callbacks.reverse) ++ []).Perm passed := by
  rw [List.append_nil]
  exact ((List.reverse_perm callbacks).append_left called).trans h

theorem Calls.popIfDone_ok {c : Calls ι} (hperm : (c.called ++ c.transactionCallbacks).Perm passed)
    (hcounted : c.nPendingWorkerTasks = c.tasks) : c.popIfDone.Ok passed := by
  rw [Calls.popIfDone]
  split_ifs with hdone
  · exact ⟨perm_popCallbacks hperm, hcounted, fun _ _ _ => rfl⟩
  · exact ⟨hperm, hcounted, fun _ hnone => absurd hnone hdone⟩

/-! ## Replies -/

section Replies

variable {s : ReplyScan ι} {deltas : List (PendingDelta × Option ι)}

theorem handleReply_calls (s : ReplyScan ι) (x : PendingDelta × Option ι) :
    (handleReply codec s x).manager.calls = s.manager.calls := by
  rw [handleReply]
  split
  · rfl
  · dsimp only
    split_ifs
    · rfl
    · rfl
    · split
      · rw [decompressHere]
        split <;> rfl
      · rfl

theorem foldl_handleReply_calls (s : ReplyScan ι) (deltas : List (PendingDelta × Option ι)) :
    (deltas.foldl (handleReply codec) s).manager.calls = s.manager.calls := by
  induction deltas generalizing s with
  | nil => rfl
  | cons x deltas ih => rw [List.foldl_cons, ih, handleReply_calls]

theorem handleReply_of_yields {x : PendingDelta × Option ι} {tile : Tile ι}
    (htile : s.manager.tiles.get x.1.coords.key = some tile)
    (h : yields codec s.manager.tileImageCache tile x = true) :
    (handleReply codec s x).bitmaps ≠ [] ∨ (handleReply codec s x).promises ≠ [] := by
  obtain ⟨x, bitmap⟩ := x
  simp only [yields, Bool.and_eq_true, Bool.not_eq_true', Bool.eq_false_iff] at h
  obtain ⟨⟨hempty, hcollected⟩, himage⟩ := h
  rw [handleReply, htile]
  simp only [if_neg hempty, if_neg hcollected]
  cases bitmap with
  | some bitmap => exact .inl (by simp)
  | none =>
      obtain ⟨image, himage⟩ := Option.isSome_iff_exists.mp himage
      have hdecompress : codec.decompress ((s.manager.modifyTile x.coords.key fun t =>
          { t with decompressedId := x.ids.2 }).tileImageCache.get x.coords.text).join x = some image :=
        himage
      simp only [decompressHere, hdecompress]
      exact .inr (by simp)

theorem handleReply_of_not_yields {x : PendingDelta × Option ι} {tile : Tile ι}
    (htile : s.manager.tiles.get x.1.coords.key = some tile)
    (h : ¬ yields codec s.manager.tileImageCache tile x = true) :
    handleReply codec s x = { s with
      manager := s.manager.modifyTile x.1.coords.key fun t =>
        { t with decompressedId := x.1.ids.2 } } := by
  obtain ⟨x, bitmap⟩ := x
  rw [handleReply, htile]
  dsimp only
  split_ifs with hempty hcollected
  · rfl
  · rfl
  · have himage : ¬ (bitmap.isSome ||
        (codec.decompress (s.manager.tileImageCache.get x.coords.text).join x).isSome) = true := by
      intro himage
      apply h
      simp only [yields, hempty, hcollected, himage, Bool.not_false, Bool.and_self]
    simp only [Bool.or_eq_true, not_or, Bool.not_eq_true, Option.isSome_eq_false_iff,
      Option.isNone_iff_eq_none] at himage
    obtain ⟨rfl, hnone⟩ := himage
    have hdecompress : codec.decompress ((s.manager.modifyTile x.coords.key fun t =>
        { t with decompressedId := x.ids.2 }).tileImageCache.get x.coords.text).join x = none := hnone
    simp only [decompressHere, hdecompress]

/-- What a reply has brought is kept. -/
theorem foldl_handleReply_keeps (h : s.bitmaps ≠ [] ∨ s.promises ≠ [])
    (deltas : List (PendingDelta × Option ι)) :
    (deltas.foldl (handleReply codec) s).bitmaps ≠ [] ∨
      (deltas.foldl (handleReply codec) s).promises ≠ [] := by
  induction deltas generalizing s with
  | nil => exact h
  | cons x deltas ih =>
      apply ih
      cases htile : s.manager.tiles.get x.1.coords.key with
      | none =>
          rw [handleReply, htile]
          exact h
      | some tile =>
          by_cases hyields : yields codec s.manager.tileImageCache tile x = true
          · exact handleReply_of_yields htile hyields
          · rw [handleReply_of_not_yields htile hyields]
            exact h

theorem foldl_handleReply_brings
    (h : bringsBitmap codec s.manager.tileImageCache s.manager.tiles deltas = true) :
    (deltas.foldl (handleReply codec) s).bitmaps ≠ [] ∨
      (deltas.foldl (handleReply codec) s).promises ≠ [] := by
  induction deltas generalizing s with
  | nil => cases h
  | cons x deltas ih =>
      rw [bringsBitmap] at h
      rw [List.foldl_cons]
      cases htile : s.manager.tiles.get x.1.coords.key with
      | none =>
          rw [htile] at h
          have hskip : handleReply codec s x = s := by rw [handleReply, htile]
          rw [hskip]
          exact ih h
      | some tile =>
          rw [htile] at h
          by_cases hyields : yields codec s.manager.tileImageCache tile x = true
          · exact foldl_handleReply_keeps (handleReply_of_yields htile hyields) deltas
          · rw [handleReply_of_not_yields htile hyields]
            apply ih
            exact (Bool.or_eq_true_iff.mp h).resolve_left hyields

/-- After a reply the callbacks have been called, or there is something that will call them. -/
theorem finish_ok (hperm : (s.manager.called ++ s.manager.transactionCallbacks).Perm passed)
    (hcounted : s.manager.nPendingWorkerTasks = s.manager.calls.tasks)
    (hidle : s.manager.inTransaction = 0 → s.manager.nPendingWorkerTasks = 0 →
      s.manager.bitmapPromises = [] → s.manager.transactionCallbacks = [] ∨
        s.bitmaps ≠ [] ∨ s.promises ≠ []) :
    s.finish.calls.Ok passed := by
  rw [ReplyScan.finish]
  have hbitmaps : ∀ c : Calls ι, c = s.manager.calls.popIfDone → c.Ok passed :=
    fun c hc => hc ▸ Calls.popIfDone_ok hperm hcounted
  by_cases hpromises : s.promises = []
  · rw [if_neg (not_not.mpr hpromises)]
    split_ifs with hnone
    · exact hbitmaps _ (calls_endTransactionHandleBitmaps _ _)
    · refine ⟨hperm, hcounted, fun hin hdone hwaits => ?_⟩
      rcases hidle hin hdone hwaits with hcalled | hbrings | hbrings
      · exact hcalled
      · exact absurd hbrings hnone
      · exact absurd hpromises hbrings
  · rw [if_pos hpromises]
    have hwaits : ∀ (m : TileManager ι), (m.called ++ m.transactionCallbacks).Perm passed →
        m.nPendingWorkerTasks = m.calls.tasks →
        ({ m with bitmapPromises := m.bitmapPromises ++ [s.promises] } : TileManager ι).calls.Ok
          passed := by
      intro m hperm hcounted
      refine ⟨hperm, hcounted, fun _ _ hempty => ?_⟩
      exact absurd hempty (List.append_ne_nil_of_right_ne_nil _ (List.cons_ne_nil _ _))
    split_ifs
    · have hok := hbitmaps _ (calls_endTransactionHandleBitmaps s.manager s.bitmaps)
      exact hwaits _ hok.once hok.counted
    · exact hwaits _ hperm hcounted

theorem onWorkerMessage_ok (hperm : (m.called ++ m.transactionCallbacks).Perm passed)
    (hcounted : m.nPendingWorkerTasks - 1 = m.calls.tasks)
    (hidle : m.inTransaction = 0 → m.nPendingWorkerTasks - 1 = 0 → m.transactionCallbacks = [] ∨
      m.strands codec deltas = false) :
    (m.onWorkerMessage codec deltas).calls.Ok passed := by
  have hscan := @foldl_handleReply_calls ι codec
    ⟨{ m with nPendingWorkerTasks := m.nPendingWorkerTasks - 1 }, [], []⟩ deltas
  have hcalls := Calls.mk.inj hscan
  obtain ⟨hin, hworkers, hpending, hcallbacks, hcalled, hpromises⟩ := hcalls
  apply finish_ok
  · rw [hcallbacks, hcalled]
    exact hperm
  · rw [hscan, hpending]
    exact hcounted
  · rw [hin, hpending, hpromises, hcallbacks]
    intro hzero hdone hwaits
    refine (hidle hzero hdone).imp_right fun hstrands => ?_
    apply foldl_handleReply_brings
    have hnone : m.bitmapPromises = [] := hwaits
    simpa [strands, hnone] using hstrands

end Replies

/-! ## The end of a transaction -/

theorem disableWorkers_ok (hperm : (m.called ++ m.transactionCallbacks).Perm passed)
    (h : m.workers ≠ []) : m.disableWorkers.calls.Ok passed := by
  rw [disableWorkers, if_neg h, calls_removeAllTiles]
  exact ⟨perm_popCallbacks hperm, rfl, fun _ _ _ => rfl⟩

/-- There is a worker for what is pending. -/
theorem exists_bucketOf (hworkers : m.workers ≠ []) (hpending : m.pendingDeltas ≠ [])
    (h : ¬ m.noBucket = true) :
    ∃ i < m.workers.length, bucketOf m.pendingDeltas m.workers.length i ≠ [] := by
  obtain ⟨x, hx⟩ := List.exists_mem_of_ne_nil _ hpending
  have hpos : (0 : Int) < m.workers.length := by
    exact_mod_cast List.length_pos_of_ne_nil hworkers
  have hlow : 0 ≤ bucket x.coords m.workers.length := by
    by_contra hneg
    exact h (List.any_eq_true.mpr ⟨x, hx, decide_eq_true (by omega)⟩)
  have hhigh : bucket x.coords m.workers.length < m.workers.length := Int.tmod_lt_of_pos _ hpos
  refine ⟨(bucket x.coords m.workers.length).toNat, by omega, ?_⟩
  apply List.ne_nil_of_mem (a := x)
  exact List.mem_filter.mpr ⟨hx, decide_eq_true (Int.toNat_of_nonneg hlow).symm⟩

theorem postMessages_ok (hperm : (m.called ++ m.transactionCallbacks).Perm passed)
    (hcounted : m.nPendingWorkerTasks = m.calls.tasks) (hworkers : m.workers ≠ [])
    (hpending : m.pendingDeltas ≠ []) (h : ¬ m.noBucket = true) :
    m.postMessages.calls.Ok passed := by
  refine ⟨hperm, ?_, fun _ hnone => ?_⟩
  · have hposted : ∀ (i : Nat) (w : TileWorker ι),
        (w.postMessage (bucketOf m.pendingDeltas m.workers.length i) m.tileImageCache.keys).tasks =
          w.tasks + if bucketOf m.pendingDeltas m.workers.length i ≠ [] then 1 else 0 := by
      intro i w
      rw [TileWorker.postMessage]
      by_cases hempty : bucketOf m.pendingDeltas m.workers.length i = []
      · rw [if_pos hempty, if_neg (not_not.mpr hempty), Nat.add_zero]
      · rw [if_neg hempty, if_pos hempty]
        simp only [TileWorker.tasks, List.length_append, List.length_singleton]
        omega
    have hsum := sum_map_mapIdx (p := fun i => bucketOf m.pendingDeltas m.workers.length i ≠ [])
      (fun i w => by simpa using hposted i w) m.workers
    show m.nPendingWorkerTasks + _ = ((postDeltas _ _ _).map TileWorker.tasks).sum
    rw [postDeltas, hsum, hcounted]
    rfl
  · obtain ⟨i, hi, hbucket⟩ := exists_bucketOf hworkers hpending h
    have hone : i ∈ (List.range m.workers.length).filter fun i =>
        bucketOf m.pendingDeltas m.workers.length i ≠ [] :=
      List.mem_filter.mpr ⟨List.mem_range.mpr hi, decide_eq_true hbucket⟩
    have hpos := List.length_pos_of_mem hone
    have hsum : m.nPendingWorkerTasks + ((List.range m.workers.length).filter fun i =>
        bucketOf m.pendingDeltas m.workers.length i ≠ []).length = 0 := hnone
    omega

theorem endTransaction_ok {callback : Option Nat} (hm : m.calls.Ok passed)
    (hpaired : m.paired (.endTransaction callback) = true)
    (hcalls : m.callsBack codec (.endTransaction callback) = true) :
    (m.endTransaction codec callback).calls.Ok (passed ++ callback.toList) := by
  have hin : m.inTransaction ≠ 0 := of_decide_eq_true hpaired
  have hperm : (m.called ++ (m.transactionCallbacks ++ callback.toList)).Perm
      (passed ++ callback.toList) := by
    rw [← List.append_assoc]
    exact hm.once.append_right callback.toList
  have hcounted : m.nPendingWorkerTasks = m.calls.tasks := hm.counted
  rw [endTransaction, if_neg hin]
  dsimp only
  split_ifs with hinner hnone hstopped
  · exact ⟨hperm, hcounted, fun hzero => absurd hzero hinner⟩
  · have houter : m.inTransaction = 1 := by omega
    have hnowaits : m.nPendingWorkerTasks = 0 → m.bitmapPromises = [] →
        m.transactionCallbacks = [] := by
      intro hdone hpromises
      simpa [callsBack, houter, hnone, hdone, hpromises] using hcalls
    cases callback with
    | none => exact ⟨hperm, hcounted, fun _ hdone hpromises => by
        simpa [calls] using hnowaits hdone hpromises⟩
    | some callback =>
        refine ⟨?_, hcounted, fun _ hdone hpromises => ?_⟩
        · show ((m.called ++ [callback]) ++ (m.transactionCallbacks ++ [callback]).dropLast).Perm _
          rw [List.dropLast_concat, List.append_assoc]
          exact (List.perm_append_comm.append_left m.called).trans hperm
        · show (m.transactionCallbacks ++ [callback]).dropLast = []
          rw [List.dropLast_concat]
          exact hnowaits hdone hpromises
  · have houter : m.inTransaction = 1 := by omega
    obtain ⟨hworkers, hbucket⟩ := hstopped
    have hbucket' : m.noBucket = true := hbucket
    have hcallback : callback = none := by
      simpa [callsBack, houter, hnone, hworkers, hbucket'] using hcalls
    subst hcallback
    rw [Option.toList_none, List.append_nil, List.append_nil, List.append_nil]
    apply disableWorkers_ok
    · exact hm.once
    · exact hworkers
  · have houter : m.inTransaction = 1 := by omega
    rw [decompressPendingDeltas]
    by_cases hworkers : m.workers = []
    · rw [if_pos hworkers]
      apply onWorkerMessage_ok
      · exact hperm
      · exact hcounted
      · intro _ _
        have hstrands : m.transactionCallbacks ++ callback.toList = [] ∨
            m.strands codec (m.pendingDeltas.map fun x => (x, none)) = false := by
          simpa [callsBack, houter, hnone, hworkers] using hcalls
        exact hstrands
    · rw [if_neg hworkers]
      apply postMessages_ok
      · exact hperm
      · exact hcounted
      · exact hworkers
      · exact hnone
      · exact fun hbucket => hstopped ⟨hworkers, hbucket⟩

/-! ## Tasks -/

theorem handleDeltas_tasks (deltas : List PendingDelta) (w : TileWorker ι) :
    (TileWorker.handleDeltas codec deltas w).1.tasks = w.tasks := by
  induction deltas generalizing w with
  | nil => rfl
  | cons x deltas ih =>
      rw [TileWorker.handleDeltas]
      dsimp only
      split
      · rfl
      · exact ih _

/-- A message that is handled is a reply, or an error. -/
theorem onMessage_tasks (w : TileWorker ι) (message : WorkerMessage) :
    (w.onMessage codec message).tasks = w.tasks + 1 := by
  rw [TileWorker.onMessage]
  have htasks := @handleDeltas_tasks ι codec message.deltas { w with
    tileImageCache := w.tileImageCache.filterKeys fun key => key ∈ message.cachedTiles }
  split
  · rename_i w' bitmaps heq
    rw [heq] at htasks
    simp only [TileWorker.tasks, List.length_append, List.length_singleton] at htasks ⊢
    omega
  · rename_i w' heq
    rw [heq] at htasks
    simp only [TileWorker.tasks] at htasks ⊢
    omega

theorem workerHandles_ok {i : Nat} (hm : m.calls.Ok passed)
    (hstep : m.workerHandles codec i = some m') : m'.calls.Ok passed := by
  rw [workerHandles] at hstep
  split at hstep
  · cases hstep
  · rename_i w hw
    split at hstep
    · cases hstep
    · rename_i message inbox hinbox
      cases hstep
      have htasks : (({ w with inbox := inbox } : TileWorker ι).onMessage codec message).tasks =
          w.tasks := by
        rw [onMessage_tasks]
        simp only [TileWorker.tasks, hinbox, List.length_cons]
        omega
      have hsum := sum_map_set hw (({ w with inbox := inbox } : TileWorker ι).onMessage codec message)
        TileWorker.tasks
      refine ⟨hm.once, ?_, hm.idle⟩
      show m.nPendingWorkerTasks = ((m.workers.set i _).map TileWorker.tasks).sum
      have hcounted : m.nPendingWorkerTasks = (m.workers.map TileWorker.tasks).sum := hm.counted
      omega

theorem workerReply_ok {i reply : Nat} (hm : m.calls.Ok passed)
    (hstep : m.workerReply codec i reply = some m')
    (hcalls : m.callsBack codec (.workerReply i reply) = true) : m'.calls.Ok passed := by
  rw [workerReply] at hstep
  split at hstep
  · cases hstep
  · rename_i w hw
    obtain ⟨deltas, hreply, rfl⟩ := Option.map_eq_some_iff.mp hstep
    have hsum := sum_map_set hw { w with replies := w.replies.eraseIdx reply } TileWorker.tasks
    have hcounted : m.nPendingWorkerTasks = (m.workers.map TileWorker.tasks).sum := hm.counted
    have hlength := List.length_eraseIdx_of_lt (List.getElem?_eq_some_iff.mp hreply).1
    have hpos : 0 < w.replies.length := Nat.zero_lt_of_lt (List.getElem?_eq_some_iff.mp hreply).1
    have htasks : ({ w with replies := w.replies.eraseIdx reply } : TileWorker ι).tasks + 1 =
        w.tasks := by
      simp only [TileWorker.tasks, hlength]
      omega
    apply onWorkerMessage_ok
    · exact hm.once
    · show m.nPendingWorkerTasks - 1 = ((m.workers.set i _).map TileWorker.tasks).sum
      omega
    · intro hin hdone
      have hlast : m.nPendingWorkerTasks = 1 := by
        have hdone' : m.nPendingWorkerTasks - 1 = 0 := hdone
        omega
      have hin' : m.inTransaction = 0 := hin
      have hstrands : m.transactionCallbacks = [] ∨
          m.strands codec (deltas.map fun (x, bitmap) => (x, some bitmap)) = false := by
        simpa [callsBack, hin', hlast, hw, hreply] using hcalls
      exact hstrands

/-! ## A run -/

theorem calls_start_ok (haveWorkers : Bool) : (start haveWorkers : TileManager ι).calls.Ok [] := by
  refine ⟨.nil, ?_, fun _ _ _ => rfl⟩
  cases haveWorkers <;> rfl

theorem step_ok {e : Event} (hm : m.calls.Ok passed) (hstep : step codec m e = some m')
    (hpaired : m.paired e = true) (hcalls : m.callsBack codec e = true) :
    m'.calls.Ok (passed ++ e.passed) := by
  have hnone : ∀ m' : TileManager ι, m'.calls.Ok passed → m'.calls.Ok (passed ++ []) := by
    intro m' hok
    rwa [List.append_nil]
  -- Most events leave all of this as it is.
  have hsame : ∀ m' : TileManager ι, m'.calls = m.calls → m'.calls.Ok (passed ++ []) := by
    intro m' heq
    exact hnone m' (heq ▸ hm)
  cases e with
  | beginTransaction =>
      cases hstep
      apply hnone
      exact ⟨hm.once, hm.counted, fun hzero => absurd hzero (Nat.succ_ne_zero _)⟩
  | endTransaction callback =>
      cases hstep
      exact endTransaction_ok hm hpaired hcalls
  | onTileMsg coords distance wireId img =>
      cases hstep
      exact hsame _ (calls_onTileMsg m coords distance wireId img)
  | createTile coords =>
      cases hstep
      exact hsame _ (calls_createTile m coords)
  | makeTileCurrent key =>
      cases hstep
      exact hsame _ (calls_makeTileCurrent m key)
  | updateAllTileDistances distance =>
      cases hstep
      exact hsame _ rfl
  | garbageCollect discardAll =>
      cases hstep
      exact hsame _ (calls_garbageCollect m discardAll)
  | reclaimTileBitmapMemory key =>
      cases hstep
      exact hsame _ (calls_reclaimTileBitmapMemory m key)
  | reclaimGraphicsMemory =>
      cases hstep
      exact hsame _ (calls_reclaimGraphicsMemory m)
  | rehydrateTile key =>
      cases hstep
      exact hsame _ (calls_rehydrateTile m key false)
  | rehydrateCurrentTile =>
      cases hstep
      exact hsame _ (calls_rehydrateCurrentTile m)
  | tileReady coords =>
      cases hstep
      exact hsame _ rfl
  | removeTile key =>
      cases hstep
      exact hsame _ (calls_removeTile m key)
  | removeAllTiles =>
      cases hstep
      exact hsame _ (calls_removeAllTiles m)
  | invalidateTile key wireId =>
      cases hstep
      exact hsame _ (calls_invalidateTile m key wireId)
  | refreshTilesInBackground =>
      cases hstep
      exact hsame _ rfl
  | workerHandles i =>
      apply hnone
      exact workerHandles_ok hm hstep
  | workerReply i reply =>
      apply hnone
      exact workerReply_ok hm hstep hcalls
  | workerError i =>
      rw [TileManager.step] at hstep
      split_ifs at hstep with herror
      cases hstep
      apply hnone
      apply disableWorkers_ok hm.once
      intro hnone
      rw [hnone] at herror
      cases herror
  | bitmapsReady promise =>
      obtain ⟨deltas, -, rfl⟩ := Option.map_eq_some_iff.mp hstep
      apply hnone
      rw [calls_endTransactionHandleBitmaps]
      exact Calls.popIfDone_ok hm.once hm.counted

/-- The callbacks that are passed to the ends of transactions. -/
def passedBy (es : List Event) : List Nat := es.flatMap Event.passed

theorem run_ok {es : List Event} (hm : m.calls.Ok passed)
    (hrun : run (stepIf (step codec) fun m e => m.paired e && m.callsBack codec e) m es = some m') :
    m'.calls.Ok (passed ++ passedBy es) := by
  induction es generalizing m passed with
  | nil =>
      cases hrun
      simpa [passedBy] using hm
  | cons e es ih =>
      obtain ⟨m₁, hstep, hrest⟩ := (run_cons_eq_some _).mp hrun
      obtain ⟨hmeets, hstep⟩ := (stepIf_eq_some _).mp hstep
      obtain ⟨hpaired, hcalls⟩ := Bool.and_eq_true_iff.mp hmeets
      have hok := ih (step_ok hm hstep hpaired hcalls) hrest
      rw [List.append_assoc] at hok
      exact hok

/-- The callbacks of transactions that call back are called once. -/
theorem callsOnce_of_callsBack (codec : Codec ι) (haveWorkers : Bool) (es : List Event)
    (m : TileManager ι)
    (hrun : run (stepIf (step codec) fun m e => m.paired e && m.callsBack codec e)
      (start haveWorkers) es = some m) : m.CallsOnce (passedBy es) :=
  (run_ok (calls_start_ok haveWorkers) hrun).callsOnce

/-- A transaction inside another one, and one that is ended while a worker is still busy. -/
theorem callsOnce_of_callsBack_nested :
    ∃ m, run (stepIf (step dataCodec) fun m e => m.paired e && m.callsBack dataCodec e)
        (start true)
        [.beginTransaction, .onTileMsg ⟨0, 0, 10, 0, 0⟩ 0 1 (some ⟨[1], true⟩), .beginTransaction,
          .endTransaction (some 0), .endTransaction (some 1), .beginTransaction,
          .endTransaction (some 2), .workerHandles 0, .workerReply 0 0] = some m ∧
      m.called = [2, 1, 0] ∧ m.CallsOnce [0, 1, 2] := by
  obtain ⟨m, hrun, hcalled⟩ := run_reaches
    (stepIf (step dataCodec) fun m e => m.paired e && m.callsBack dataCodec e) (start true)
    [.beginTransaction, .onTileMsg ⟨0, 0, 10, 0, 0⟩ 0 1 (some ⟨[1], true⟩), .beginTransaction,
      .endTransaction (some 0), .endTransaction (some 1), .beginTransaction,
      .endTransaction (some 2), .workerHandles 0, .workerReply 0 0]
    (P := fun m => m.called = [2, 1, 0]) (by decide +kernel)
  exact ⟨m, hrun, hcalled, callsOnce_of_callsBack dataCodec true _ m hrun⟩

/-- The only tile of a reply has been removed before it comes: the callback is never called. -/
theorem callback_of_removed_tile_waits :
    ¬ ∀ (es : List Event) (m : TileManager (List (List UInt8))),
      run (stepIf (step dataCodec) paired) (start true) es = some m →
        m.CallsOnce (passedBy es) := by
  intro hall
  obtain ⟨m, hrun, hin, htasks, hpromises, hcallbacks⟩ := run_reaches
    (stepIf (step dataCodec) paired) (start true)
    [.beginTransaction, .onTileMsg ⟨0, 0, 10, 0, 0⟩ 0 1 (some ⟨[1], true⟩), .endTransaction (some 0),
      .workerHandles 0, .removeAllTiles, .workerReply 0 0]
    (P := fun m => m.inTransaction = 0 ∧ m.calls.tasks = 0 ∧ m.bitmapPromises.length = 0 ∧
      m.transactionCallbacks = [0]) (by decide +kernel)
  have hnone := (hall _ m hrun).idle hin htasks (List.length_eq_zero_iff.mp hpromises)
  rw [hcallbacks] at hnone
  cases hnone

end TileManager

end CoolOnline.Browser
