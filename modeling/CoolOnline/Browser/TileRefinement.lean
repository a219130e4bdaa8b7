import CoolOnline.Browser.TileFlow

/-! # The tile manager refines the flow of raw deltas

Every function of the tile manager is a sequence of changes of the abstract machine, whatever it does
to bitmaps and distances.
-/

namespace CoolOnline.Browser

open Relation

variable {ι : Type}

def Tile.flow (t : Tile ι) : FlowTile := ⟨t.rawDeltas, t.deltaId, t.lastPendingId⟩

namespace TileManager

def flow (m : TileManager ι) : Flow ι :=
  { tiles := fun c => (m.tiles.get c.key).map Tile.flow
    cached := fun c => m.tileImageCache.has c.key
    pendingDeltas := m.pendingDeltas
    workers := m.workers
    history := m.history }

/-- The tiles are under their own keys. -/
def WellKeyed (m : TileManager ι) : Prop := ∀ key t, m.tiles.get key = some t → t.coords.key = key

/-- What is done from `m` to `m'` are changes of the flow. -/
def Refines (K : Codec ι) (C : Flow ι → Prop) (m m' : TileManager ι) : Prop :=
  m.WellKeyed → m'.WellKeyed ∧ ReflTransGen (Flow.Step K C) m.flow m'.flow

variable {K : Codec ι} {C : Flow ι → Prop} {m m' m'' : TileManager ι} {key : Key}
  {f : Tile ι → Tile ι} {t : Tile ι}

namespace Refines

theorem refl (m : TileManager ι) : Refines K C m m := fun h => ⟨h, .refl⟩

theorem trans (h : Refines K C m m') (h' : Refines K C m' m'') : Refines K C m m'' := by
  intro hm
  obtain ⟨hm', hsteps⟩ := h hm
  obtain ⟨hm'', hsteps'⟩ := h' hm'
  exact ⟨hm'', hsteps.trans hsteps'⟩

theorem foldl {α : Type*} {f : TileManager ι → α → TileManager ι}
    (h : ∀ m a, Refines K C m (f m a)) (l : List α) (m : TileManager ι) :
    Refines K C m (l.foldl f m) := by
  induction l generalizing m with
  | nil => exact .refl m
  | cons a l ih => exact (h m a).trans (ih (f m a))

theorem ite {p : Prop} [Decidable p] (h : p → Refines K C m m')
    (h' : ¬ p → Refines K C m m'') : Refines K C m (if p then m' else m'') := by
  split
  case isTrue hp => exact h hp
  case isFalse hp => exact h' hp

end Refines

/-! ## Tiles -/

theorem WellKeyed.modifyTile (h : m.WellKeyed) (hcoords : ∀ t, (f t).coords = t.coords) :
    (m.modifyTile key f).WellKeyed := by
  intro key' t hget
  simp only [TileManager.modifyTile, OrderedMap.get_modify] at hget
  split at hget
  · obtain ⟨t', hget', rfl⟩ := Option.map_eq_some_iff.mp hget
    rw [hcoords]
    exact h key' t' hget'
  · exact h key' t hget

theorem tiles_update (hm : m.WellKeyed) (hget : m.tiles.get key = some t) (c : TileCoordData) :
    c = t.coords ↔ key = c.key := by
  have hkey := hm key t hget
  constructor
  · rintro rfl
    exact hkey.symm
  · intro heq
    exact TileCoordData.key_injective (heq.symm.trans hkey.symm)

/-- Tiles that differ at one key give a flow that differs at one tile. -/
theorem flow_setTile (hm : m.WellKeyed) (hget : m.tiles.get key = some t)
    {tiles : OrderedMap Key (Tile ι)} (changed : Option (Tile ι))
    (h : ∀ key', tiles.get key' = if key = key' then changed else m.tiles.get key') :
    flow { m with tiles := tiles } = m.flow.setTile t.coords (changed.map Tile.flow) := by
  simp only [flow, Flow.setTile, Flow.mk.injEq, and_true]
  funext c
  rw [h, Function.update_apply]
  by_cases hc : key = c.key
  · rw [if_pos hc, if_pos ((tiles_update hm hget c).mpr hc)]
  · rw [if_neg hc, if_neg fun heq => hc ((tiles_update hm hget c).mp heq)]

theorem flow_modifyTile (hm : m.WellKeyed) (hget : m.tiles.get key = some t) :
    (m.modifyTile key f).flow = m.flow.setTile t.coords (some (f t).flow) := by
  refine flow_setTile hm hget (some (f t)) fun key' => ?_
  rw [OrderedMap.get_modify]
  split
  case isTrue heq =>
    rw [← heq, hget]
    rfl
  case isFalse => rfl

theorem flow_tiles_of_get (hm : m.WellKeyed) (hget : m.tiles.get key = some t) :
    m.flow.tiles t.coords = some t.flow := by
  simp only [flow, hm key t hget, hget, Option.map_some]

/-- A tile changes by changes of the flow. -/
theorem refines_modifyTile (key : Key) (hcoords : ∀ t, (f t).coords = t.coords)
    (hsteps : ∀ t, m.tiles.get key = some t → m.flow.tiles t.coords = some t.flow →
      ReflTransGen (Flow.Step K C) m.flow (m.flow.setTile t.coords (some (f t).flow))) :
    Refines K C m (m.modifyTile key f) := by
  intro hm
  refine ⟨hm.modifyTile hcoords, ?_⟩
  cases hget : m.tiles.get key with
  | none =>
      have hsame : m.modifyTile key f = m := by rw [modifyTile, OrderedMap.modify, hget]
      rw [hsame]
  | some t =>
      rw [flow_modifyTile hm hget]
      exact hsteps t hget (flow_tiles_of_get hm hget)

/-- What the flow does not depend on changes. -/
theorem flow_modifyTile_same (key : Key) (hm : m.WellKeyed) (hflow : ∀ t, (f t).flow = t.flow) :
    (m.modifyTile key f).flow = m.flow := by
  cases hget : m.tiles.get key with
  | none => rw [modifyTile, OrderedMap.modify, hget]
  | some t =>
      rw [flow_modifyTile hm hget, hflow t, Flow.setTile, ← flow_tiles_of_get hm hget,
        Function.update_eq_self]

theorem refines_modifyTile_same (hcoords : ∀ t, (f t).coords = t.coords)
    (hflow : ∀ t, (f t).flow = t.flow) : Refines K C m (m.modifyTile key f) := by
  intro hm
  rw [flow_modifyTile_same key hm hflow]
  exact ⟨hm.modifyTile hcoords, .refl⟩

theorem refines_mapValues_same (hcoords : ∀ t, (f t).coords = t.coords)
    (hflow : ∀ t, (f t).flow = t.flow) :
    Refines K C m { m with tiles := m.tiles.mapValues f } := by
  intro hm
  constructor
  · intro key t hget
    rw [OrderedMap.get_mapValues] at hget
    obtain ⟨t', hget', rfl⟩ := Option.map_eq_some_iff.mp hget
    rw [hcoords]
    exact hm key t' hget'
  · have hsame : flow { m with tiles := m.tiles.mapValues f } = m.flow := by
      simp only [flow, Flow.mk.injEq, and_true]
      funext c
      rw [OrderedMap.get_mapValues, Option.map_map]
      congr 1
      funext t
      exact hflow t
    rw [hsame]

theorem createTile_refines (coords : TileCoordData) : Refines K C m (m.createTile coords) := by
  intro hm
  rw [createTile]
  split
  case isTrue => exact ⟨hm, .refl⟩
  case isFalse hhas =>
    have hnone : m.tiles.get coords.key = none := by
      rw [OrderedMap.has, Option.not_isSome_iff_eq_none] at hhas
      exact hhas
    constructor
    · intro key t hget
      rw [OrderedMap.get_set] at hget
      split at hget
      case isTrue heq =>
        obtain rfl := Option.some.inj hget
        exact heq
      case isFalse => exact hm key t hget
    · have heq : flow { m with tiles := m.tiles.set coords.key (.new coords) } =
          m.flow.setTile coords (some ⟨[], 0, 0⟩) := by
        simp only [flow, Flow.setTile, Flow.mk.injEq, and_true]
        funext c
        rw [OrderedMap.get_set, Function.update_apply]
        by_cases hc : c = coords
        · subst hc
          simp [Tile.flow, Tile.new]
        · rw [if_neg fun h => hc (TileCoordData.key_injective h.symm), if_neg hc]
      rw [heq]
      apply ReflTransGen.single
      apply Flow.Step.create
      simp [flow, hnone]

theorem reclaimTileBitmapMemory_refines (key : Key) :
    Refines K C m (m.reclaimTileBitmapMemory key) := by
  intro hm
  rw [reclaimTileBitmapMemory]
  cases hget : m.tiles.get key with
  | none => exact ⟨hm, .refl⟩
  | some t =>
      dsimp only
      split
      case isFalse => exact ⟨hm, .refl⟩
      case isTrue =>
        obtain ⟨hm', hsteps⟩ := refines_modifyTile (K := K) (C := C) (m := m) key
          (f := fun t => { t with image := none, decompressedId := 0, lastPendingId := 0 })
          (fun _ => rfl) (fun t _ ht => .single (.reclaim m.flow t.coords t.flow ht)) hm
        have hset : m.tiles.modify key
            (fun t => { t with image := none, decompressedId := 0, lastPendingId := 0 }) =
            m.tiles.set key { t with image := none, decompressedId := 0, lastPendingId := 0 } := by
          rw [OrderedMap.modify, hget]
        rw [modifyTile, hset] at hm' hsteps
        refine ⟨hm', hsteps.tail ?_⟩
        -- the deleted key is none that the flow depends on
        have hcached (c : TileCoordData) :
            (m.tileImageCache.delete t.coords.text).has c.key = m.tileImageCache.has c.key := by
          rw [OrderedMap.has, OrderedMap.get_delete, if_neg (c.key_ne_text t.coords).symm,
            OrderedMap.has]
        exact Flow.Step.cache _ _ fun c hc => (hcached c).trans hc

theorem removeTile_refines (m : TileManager ι) (key : Key) :
    Refines K C m (m.removeTile key) := by
  rw [removeTile]
  split
  case isFalse => exact .refl m
  case isTrue hhas =>
    apply (reclaimTileBitmapMemory_refines key).trans
    intro hm
    generalize m.reclaimTileBitmapMemory key = m at hm
    constructor
    · intro key' t hget
      rw [OrderedMap.get_delete] at hget
      split at hget
      · cases hget
      · exact hm key' t hget
    · cases hget : m.tiles.get key with
      | none =>
          have hsame : flow { m with tiles := m.tiles.delete key } = m.flow := by
            simp only [flow, Flow.mk.injEq, and_true]
            funext c
            rw [OrderedMap.get_delete]
            split
            case isTrue heq => rw [← heq, hget]
            case isFalse => rfl
          rw [hsame]
      | some t =>
          have heq := flow_setTile hm hget none fun _ => OrderedMap.get_delete
          rw [heq]
          exact .single (.remove m.flow t.coords)

theorem removeAllTiles_refines (m : TileManager ι) : Refines K C m m.removeAllTiles := by
  have hcleared : Refines K C m { m with tileBitmapList := [] } := fun h => ⟨h, .refl⟩
  exact hcleared.trans (.foldl removeTile_refines _ _)

/-! ## Garbage collection and bitmaps -/

theorem clear_refines (key : Key) : Refines K C m
    (m.modifyTile key fun t => { t with rawDeltas := [] }.forceKeyframe 0) :=
  refines_modifyTile _ (fun _ => rfl) fun t _ ht => .single (.clear m.flow t.coords t.flow ht)

theorem trimDeltas_refines (lowDeltaMemory : Nat) (keys : List Key) (totalSize : Nat)
    (m : TileManager ι) : Refines K C m (trimDeltas lowDeltaMemory keys totalSize m) := by
  induction keys generalizing totalSize m with
  | nil => exact .refl m
  | cons key keys ih =>
      rw [trimDeltas]
      apply Refines.ite
      · exact fun _ => .refl m
      · intro _
        split
        · exact ih totalSize m
        · apply Refines.ite
          · intro _
            exact (reclaimTileBitmapMemory_refines key).trans ((clear_refines key).trans (ih _ _))
          · exact fun _ => ih totalSize m

theorem trimMemory_refines (m : TileManager ι) (high low : Nat) :
    Refines K C m (m.trimMemory high low) :=
  .ite (fun _ => trimDeltas_refines _ _ _ m) fun _ => .refl m

theorem trimTiles_refines (m : TileManager ι) (tileCount high low : Nat) :
    Refines K C m (m.trimTiles tileCount high low) := by
  apply Refines.ite
  · intro _
    apply Refines.foldl
    intro m key
    exact .ite (fun _ => removeTile_refines m key) fun _ => .refl m
  · exact fun _ => .refl m

theorem garbageCollect_refines (m : TileManager ι) (discardAll : Bool) :
    Refines K C m (m.garbageCollect discardAll) :=
  .ite (fun _ => (trimMemory_refines m _ _).trans (trimTiles_refines _ _ _ _))
    fun _ => (trimMemory_refines m _ _).trans (trimTiles_refines _ _ _ _)

theorem freeLastTile_refines (m : TileManager ι) : Refines K C m m.freeLastTile := by
  rw [freeLastTile]
  split
  · exact .ite (fun _ => reclaimTileBitmapMemory_refines _) fun _ => .refl m
  · exact .refl m

theorem setBitmapOnTile_refines (m : TileManager ι) (key : Key) (bitmap : ι) :
    Refines K C m (m.setBitmapOnTile key bitmap) := by
  rw [setBitmapOnTile]
  split
  · exact .refl m
  · apply Refines.ite
    · exact fun _ => refines_modifyTile_same (fun _ => rfl) fun _ => rfl
    · intro _
      apply (freeLastTile_refines m).trans
      exact Refines.trans (fun h => ⟨h, .refl⟩)
        (refines_modifyTile_same (f := fun t => { t with image := some bitmap }) (fun _ => rfl)
          fun _ => rfl)

theorem tileReady_refines (m : TileManager ι) (coords : TileCoordData) :
    Refines K C m (m.tileReady coords) :=
  refines_modifyTile _ (fun _ => rfl) fun t _ ht => .single (.trim m.flow t.coords t.flow ht)

theorem handleBitmap_refines (m : TileManager ι) (x : PendingDelta × ι) :
    Refines K C m (m.handleBitmap x) := by
  rw [handleBitmap]
  split
  · exact .refl m
  · apply (setBitmapOnTile_refines m x.1.coords.key x.2).trans
    dsimp only
    split
    · exact .refl _
    · exact .ite (fun _ => tileReady_refines _ _) fun _ => .refl _

theorem endTransactionHandleBitmaps_refines (m : TileManager ι)
    (deltas : List (PendingDelta × ι)) :
    Refines K C m (m.endTransactionHandleBitmaps deltas) := by
  rw [endTransactionHandleBitmaps]
  apply (Refines.foldl handleBitmap_refines deltas m).trans
  generalize deltas.foldl handleBitmap m = m
  have hresume : Refines K C m
      (if m.visibleTilesReady then { m with pausedForCoherency := false } else m) :=
    .ite (fun _ => fun h => ⟨h, .refl⟩) fun _ => .refl m
  apply hresume.trans
  generalize (if m.visibleTilesReady then { m with pausedForCoherency := false } else m) = m
  have hcalled : Refines K C m (if m.nPendingWorkerTasks = 0 then m.popCallbacks else m) :=
    .ite (fun _ => fun h => ⟨h, .refl⟩) fun _ => .refl m
  exact hcalled.trans (garbageCollect_refines _ false)

/-! ## Raw deltas -/

theorem rehydrateTile_refines (m : TileManager ι) (key : Key) (wireMessage : Bool) :
    Refines K C m (m.rehydrateTile key wireMessage) := by
  intro hm
  rw [rehydrateTile]
  cases hget : m.tiles.get key with
  | none => exact ⟨hm, .refl⟩
  | some tile =>
      dsimp only
      split
      case isFalse => exact ⟨hm, .refl⟩
      case isTrue hneeds =>
        have hpaused (p : Prop) [Decidable p] :
            (if p then { m with pausedForCoherency := true } else m).tiles = m.tiles ∧
              (if p then { m with pausedForCoherency := true } else m).flow = m.flow := by
          split <;> exact ⟨rfl, rfl⟩
        obtain ⟨htiles, hflow⟩ := hpaused (tile.distanceFromView = 0)
        generalize (if tile.distanceFromView = 0 then { m with pausedForCoherency := true }
          else m) = m' at htiles hflow
        have hm' : m'.WellKeyed := by
          rw [WellKeyed, htiles]
          exact hm
        cases hx : slice tile.coords tile.rawDeltas tile.lastPendingId wireMessage with
        | none =>
            dsimp only
            rw [hflow]
            exact ⟨hm', .refl⟩
        | some x =>
            dsimp only [applyCompressedDelta]
            have hkey : x.coords.key = key := by
              have hcoords : x.coords = tile.coords := by
                simp only [slice] at hx
                split at hx
                · rw [← Option.some.inj hx]
                · cases hx
              rw [hcoords]
              exact hm key tile hget
            have hget' : m'.tiles.get x.coords.key = some tile := by rw [hkey, htiles, hget]
            refine ⟨hm'.modifyTile fun _ => rfl, .single ?_⟩
            have hset := flow_modifyTile (f := fun t => { t with lastPendingId := x.ids.2 }) hm' hget'
            have ht := flow_tiles_of_get hm hget
            rw [← hflow] at ht ⊢
            rw [Tile.needsRehydration] at hneeds
            split at hneeds
            · cases hneeds
            · next last hlast =>
              have hstep := Flow.Step.hand (K := K) (C := C) m'.flow tile.coords tile.flow ht
                last hlast (of_decide_eq_true hneeds) wireMessage x hx
              have hflow' : flow { m'.modifyTile x.coords.key
                    (fun t => { t with lastPendingId := x.ids.2 }) with
                  pendingDeltas := m'.pendingDeltas ++ [x]
                  history := .handed tile.rawDeltas tile.lastPendingId x :: m'.history } =
                  { m'.flow.setTile tile.coords (some { tile.flow with lastPendingId := x.ids.2 })
                    with
                    pendingDeltas := m'.flow.pendingDeltas ++ [x]
                    history := .handed tile.rawDeltas tile.lastPendingId x :: m'.flow.history } := by
                simp only [flow, Flow.setTile, Flow.mk.injEq, and_true, true_and] at hset ⊢
                exact ⟨hset.1, rfl, rfl⟩
              rw [hflow']
              exact hstep

theorem makeTileCurrent_refines (m : TileManager ι) (key : Key) :
    Refines K C m (m.makeTileCurrent key) :=
  (refines_modifyTile_same (f := fun t => { t with distanceFromView := 0 }) (fun _ => rfl)
    fun _ => rfl).trans (rehydrateTile_refines _ key false)

theorem tileForMsg_refines (m : TileManager ι) (coords : TileCoordData) (distance : Rat) :
    Refines K C m (m.tileForMsg coords distance) :=
  .ite (fun _ => .refl m) fun _ =>
    (createTile_refines coords).trans (refines_modifyTile_same (fun _ => rfl) fun _ => rfl)

theorem requestKeyframe_refines (m : TileManager ι) (coords : TileCoordData) :
    Refines K C m (m.requestKeyframe coords) :=
  (refines_modifyTile_same (f := fun t => t.forceKeyframe 0) (fun _ => rfl)
    fun _ => rfl).trans fun h => ⟨h, .refl⟩

theorem storeRawDelta_refines {coords : TileCoordData} (hget : m.tiles.get coords.key = some t)
    {img : TileImage} (himg : img.isKeyframe = true ∨ t.rawDeltas ≠ []) :
    Refines K C m (m.storeRawDelta coords img) := by
  intro hm
  refine ⟨hm.modifyTile fun _ => rfl, .single ?_⟩
  have hcoords : t.coords = coords := TileCoordData.key_injective (hm coords.key t hget)
  have hstep := Flow.Step.receive (K := K) (C := C) m.flow coords t.flow
    (hcoords ▸ flow_tiles_of_get hm hget) img himg
  have happend : (img.isKeyframe || t.hasKeyframe) = true := by
    simpa [Tile.hasKeyframe] using himg
  have hset := flow_modifyTile (f := fun t => t.append img.rawData img.isKeyframe) hm hget
  simp only [Tile.append, happend, if_true, hcoords] at hset
  have hflow : (m.storeRawDelta coords img).flow =
      { (m.modifyTile coords.key fun t => t.append img.rawData img.isKeyframe).flow with
        history := .received coords img :: m.history } := rfl
  rw [hflow]
  simp only [Tile.append] at hset ⊢
  rw [hset]
  exact hstep

theorem refuse_refines {coords : TileCoordData} (hget : m.tiles.get coords.key = some t)
    {img : TileImage} (himg : img.isKeyframe = false) (hnone : t.rawDeltas = []) :
    Refines K C m { m with history := .received coords img :: m.history } := by
  intro hm
  have hcoords : t.coords = coords := TileCoordData.key_injective (hm coords.key t hget)
  exact ⟨hm, .single (.refuse m.flow coords t.flow (hcoords ▸ flow_tiles_of_get hm hget) img
    himg hnone)⟩

theorem onTileMsg_refines (m : TileManager ι) (coords : TileCoordData) (distance : Rat)
    (wireId : Nat) (img : Option TileImage) :
    Refines K C m (m.onTileMsg coords distance wireId img) := by
  rw [onTileMsg]
  apply (tileForMsg_refines m coords distance).trans
  generalize m.tileForMsg coords distance = m
  dsimp only
  cases hget : m.tiles.get coords.key with
  | none => exact .refl m
  | some tile =>
      dsimp only
      generalize hno : (img.any fun img => !img.isKeyframe && !tile.hasKeyframe) = noKeyframe
      have hwire : Refines K C m
          (m.modifyTile coords.key fun t => { t with wireId := wireId }) :=
        refines_modifyTile_same (fun _ => rfl) fun _ => rfl
      apply hwire.trans
      have hgetWire : (m.modifyTile coords.key fun t => { t with wireId := wireId }).tiles.get
          coords.key = some { tile with wireId := wireId } := by
        simp [modifyTile, OrderedMap.get_modify, hget]
      generalize (m.modifyTile coords.key fun t => { t with wireId := wireId }) = m at hgetWire
      have hrequest : Refines K C m (if noKeyframe then m.requestKeyframe coords else m) :=
        .ite (fun _ => requestKeyframe_refines m coords) fun _ => .refl m
      apply hrequest.trans
      obtain ⟨t, hgetRequest, hraw⟩ : ∃ t,
          (if noKeyframe then m.requestKeyframe coords else m).tiles.get coords.key = some t ∧
            t.rawDeltas = tile.rawDeltas := by
        split
        · refine ⟨Tile.forceKeyframe { tile with wireId := wireId } 0, ?_, rfl⟩
          simp [requestKeyframe, modifyTile, OrderedMap.get_modify, hgetWire]
        · exact ⟨_, hgetWire, rfl⟩
      generalize (if noKeyframe then m.requestKeyframe coords else m) = m at hgetRequest
      have hhydrate (m : TileManager ι) : Refines K C m
          (if tile.distanceFromView = 0 then m.rehydrateTile coords.key true else m) :=
        .ite (fun _ => rehydrateTile_refines m coords.key true) fun _ => .refl m
      cases hfilter : img.filter fun img => decide (img.rawData ≠ []) with
      | none => exact (hhydrate m).trans fun h => ⟨h, .refl⟩
      | some content =>
          obtain ⟨rfl, -⟩ := Option.filter_eq_some_iff.mp hfilter
          simp only [Option.any_some, Tile.hasKeyframe, ← hraw] at hno
          have hcontent : Refines K C m
              (if noKeyframe then { m with history := .received coords content :: m.history }
              else m.storeRawDelta coords content) := by
            apply Refines.ite
            · rintro rfl
              have hboth : content.isKeyframe = false ∧ t.rawDeltas = [] := by simpa using hno
              exact refuse_refines hgetRequest hboth.1 hboth.2
            · intro hyes
              apply storeRawDelta_refines hgetRequest
              cases hkey : content.isKeyframe with
              | true => exact .inl rfl
              | false =>
                  right
                  intro hnone
                  simp [hkey, hnone] at hno
                  exact hyes hno
          apply hcontent.trans
          exact (hhydrate _).trans fun h => ⟨h, .refl⟩

/-! ## Replies -/

/-- What the loop over a reply has changed: only more is cached. -/
structure ReplyKeeps (m : TileManager ι) (s : ReplyScan ι) : Prop where
  keyed : s.manager.WellKeyed
  flow : s.manager.flow = { m.flow with cached := s.manager.flow.cached }
  cached : ∀ c, m.flow.cached c = true → s.manager.flow.cached c = true

variable {s : ReplyScan ι}

theorem ReplyKeeps.caches (h : ReplyKeeps m s) (key : Key) (image : Option ι)
    {bitmaps promises : List (PendingDelta × ι)} :
    ReplyKeeps m ⟨{ s.manager with tileImageCache := s.manager.tileImageCache.set key image },
      bitmaps, promises⟩ := by
  refine ⟨h.keyed, ?_, ?_⟩
  · have hflow := h.flow
    simp only [TileManager.flow, Flow.mk.injEq, true_and] at hflow ⊢
    exact hflow
  · intro c hc
    exact OrderedMap.has_set_of_has (h.cached c hc)

theorem ReplyKeeps.modify (h : ReplyKeeps m s) (key : Key) (hcoords : ∀ t, (f t).coords = t.coords)
    (hflow : ∀ t, (f t).flow = t.flow) :
    ReplyKeeps m { s with manager := s.manager.modifyTile key f } := by
  have hsame := flow_modifyTile_same key h.keyed hflow
  refine ⟨h.keyed.modifyTile hcoords, ?_, ?_⟩
  · dsimp only
    rw [hsame]
    exact h.flow
  · dsimp only
    rw [hsame]
    exact h.cached

theorem handleReply_keeps (h : ReplyKeeps m s) (x : PendingDelta × Option ι) :
    ReplyKeeps m (handleReply K s x) := by
  rw [handleReply]
  split
  · exact h
  · have hdecompressed := h.modify x.1.coords.key
      (f := fun t => { t with decompressedId := x.1.ids.2 }) (fun _ => rfl) fun _ => rfl
    dsimp only
    split
    · exact hdecompressed
    · split
      · exact hdecompressed
      · split
        · rw [decompressHere]
          split
          · exact hdecompressed
          · exact hdecompressed.caches _ _
        · exact hdecompressed.caches _ _

/-- The reply for a keyframe of a tile that is there puts its key in the map. -/
theorem handleReply_caches (h : ReplyKeeps m s) {x : PendingDelta} (hkey : x.isKeyframe = true)
    (hlive : (m.flow.tiles x.coords).isSome) (bitmap : ι) :
    (handleReply K s (x, some bitmap)).manager.flow.cached x.coords = true := by
  have htiles : s.manager.flow.tiles = m.flow.tiles := by rw [h.flow]
  rw [← htiles] at hlive
  simp only [TileManager.flow, Option.isSome_map] at hlive
  obtain ⟨tile, hget⟩ := Option.isSome_iff_exists.mp hlive
  simp [handleReply, hget, hkey, TileManager.flow]

theorem foldl_handleReply (h : ReplyKeeps m s) (deltas : List (PendingDelta × Option ι)) :
    ReplyKeeps m (deltas.foldl (handleReply K) s) ∧
      (∀ c, s.manager.flow.cached c = true →
        (deltas.foldl (handleReply K) s).manager.flow.cached c = true) ∧
      ∀ x ∈ deltas, x.2.isSome → x.1.isKeyframe = true → (m.flow.tiles x.1.coords).isSome →
        (deltas.foldl (handleReply K) s).manager.flow.cached x.1.coords = true := by
  induction deltas generalizing s with
  | nil => exact ⟨h, fun _ hc => hc, by simp⟩
  | cons x deltas ih =>
      have hself : ReplyKeeps s.manager s := ⟨h.keyed, rfl, fun _ hc => hc⟩
      obtain ⟨hkeeps, hgrow, hnew⟩ := ih (handleReply_keeps (K := K) h x)
      refine ⟨hkeeps, ?_, ?_⟩
      · intro c hc
        exact hgrow c ((handleReply_keeps hself x).cached c hc)
      · intro x' hx' hbitmap hkey hlive
        rcases List.mem_cons.mp hx' with rfl | hx'
        · obtain ⟨bitmap, hsome⟩ := Option.isSome_iff_exists.mp hbitmap
          have hcached := handleReply_caches (K := K) h hkey hlive bitmap
          rw [← hsome] at hcached
          exact hgrow _ hcached
        · exact hnew x' hx' hbitmap hkey hlive

theorem finish_refines (s : ReplyScan ι) : Refines K C s.manager s.finish := by
  have hbitmaps : Refines K C s.manager
      (if s.bitmaps ≠ [] then s.manager.endTransactionHandleBitmaps s.bitmaps else s.manager) :=
    .ite (fun _ => endTransactionHandleBitmaps_refines _ _) fun _ => .refl _
  exact hbitmaps.trans (.ite (fun _ => fun h => ⟨h, .refl⟩) fun _ => .refl _)

theorem onWorkerMessage_refines (m : TileManager ι) (deltas : List (PendingDelta × Option ι)) :
    Refines K C m (m.onWorkerMessage K deltas) := by
  intro hm
  have hstart : ReplyKeeps m
      ⟨{ m with nPendingWorkerTasks := m.nPendingWorkerTasks - 1 }, [], []⟩ :=
    ⟨hm, rfl, fun _ hc => hc⟩
  have hkeeps := (foldl_handleReply (K := K) hstart deltas).1
  obtain ⟨hkeyed, hsteps⟩ := finish_refines (K := K) (C := C) _ hkeeps.keyed
  refine ⟨hkeyed, .trans (.single ?_) hsteps⟩
  rw [hkeeps.flow]
  exact Flow.Step.cache m.flow _ hkeeps.cached

/-! ## Transactions -/

theorem workers_of_steps {s s' : Flow ι} (h : s.workers = [])
    (hsteps : ReflTransGen (Flow.Step K C) s s') : s'.workers = [] := by
  induction hsteps with
  | refl => exact h
  | tail _ hlast ih =>
      cases hlast with
      | post keys hkeys hC => simp [postDeltas, ih]
      | handle i w hw => simp [ih] at hw
      | reply i w hw => simp [ih] at hw
      | disable => rfl
      | _ => exact ih

theorem disableWorkers_refines (m : TileManager ι) : Refines K C m m.disableWorkers := by
  rw [disableWorkers]
  apply Refines.ite
  · exact fun _ => .refl m
  · intro _
    have hdisable : Refines K C m
        { m with workers := [], pendingDeltas := [], nPendingWorkerTasks := 0 }.popCallbacks :=
      fun hm => ⟨hm, .single (.disable m.flow)⟩
    exact hdisable.trans (removeAllTiles_refines _)

/-- The end of this transaction posts deltas to the workers. -/
def posts (m : TileManager ι) : Bool :=
  m.inTransaction = 1 && m.pendingDeltas ≠ [] && m.workers ≠ [] && !m.noBucket

theorem decompressPendingDeltas_refines (m : TileManager ι) (hC : m.workers ≠ [] → C m.flow) :
    Refines K C m (m.decompressPendingDeltas K) := by
  rw [decompressPendingDeltas]
  apply Refines.ite
  · intro hworkers hm
    obtain ⟨hm', hsteps⟩ := onWorkerMessage_refines (K := K) (C := C)
      { m with nPendingWorkerTasks := m.nPendingWorkerTasks + 1 }
      (m.pendingDeltas.map fun x => (x, none)) hm
    exact ⟨hm', hsteps.tail (.flush _ (workers_of_steps hworkers hsteps))⟩
  · intro hworkers hm
    exact ⟨hm, .single (.post m.flow m.tileImageCache.keys (fun _ => OrderedMap.has_iff)
      (hC hworkers))⟩

theorem endTransaction_refines (m : TileManager ι) (callback : Option Nat)
    (hC : m.posts = true → C m.flow) : Refines K C m (m.endTransaction K callback) := by
  rw [endTransaction]
  apply Refines.ite
  · exact fun _ => .refl m
  · intro hin
    have hended : Refines K C m { m with
        inTransaction := m.inTransaction - 1
        transactionCallbacks := m.transactionCallbacks ++ callback.toList } :=
      fun hm => ⟨hm, .refl⟩
    apply hended.trans
    apply Refines.ite
    · exact fun _ => .refl _
    · intro hout
      apply Refines.ite
      · intro _
        cases callback with
        | none => exact .refl _
        | some callback => exact fun hm => ⟨hm, .refl⟩
      · intro hpending
        apply Refines.ite
        · intro _
          exact (disableWorkers_refines _).trans fun hm => ⟨hm, .refl⟩
        · intro hbucket
          apply decompressPendingDeltas_refines
          intro hworkers
          apply hC
          have hone : m.inTransaction = 1 := by
            dsimp only at hout
            omega
          have hall : m.noBucket = false := by
            rw [not_and, Bool.not_eq_true] at hbucket
            exact hbucket hworkers
          simp [posts, hone, hall]
          exact ⟨hpending, hworkers⟩

/-! ## Events -/

/-- The condition is met when the event posts deltas. -/
def PostsIf (C : Flow ι → Prop) (m : TileManager ι) : Event → Prop
  | .endTransaction _ => m.posts = true → C m.flow
  | _ => True

theorem workerReply_refines {i reply : Nat} (h : m.workerReply K i reply = some m') :
    Refines K C m m' := by
  intro hm
  rw [workerReply] at h
  split at h
  · cases h
  · next w hw =>
    obtain ⟨deltas, hdeltas, rfl⟩ := Option.map_eq_some_iff.mp h
    generalize hanswered : ({ m with
      workers := m.workers.set i { w with replies := w.replies.eraseIdx reply } } :
        TileManager ι) = m₀
    have hm₀ : m₀.WellKeyed := by
      rw [← hanswered]
      exact hm
    have hflow₀ : m₀.flow = { m.flow with
        workers := m.flow.workers.set i { w with replies := w.replies.eraseIdx reply } } := by
      rw [← hanswered]
      rfl
    have hstart : ReplyKeeps m₀
        ⟨{ m₀ with nPendingWorkerTasks := m₀.nPendingWorkerTasks - 1 }, [], []⟩ :=
      ⟨hm₀, rfl, fun _ hc => hc⟩
    obtain ⟨hkeeps, -, hnew⟩ := foldl_handleReply (K := K) hstart
      (deltas.map fun (x, bitmap) => (x, some bitmap))
    obtain ⟨hkeyed, hsteps⟩ := finish_refines (K := K) (C := C) _ hkeeps.keyed
    refine ⟨hkeyed, .trans (.single ?_) hsteps⟩
    have hstep := Flow.Step.reply (K := K) (C := C) m.flow i w hw reply deltas hdeltas
      _ (fun c hc => hkeeps.cached c (by rw [hflow₀]; exact hc))
      (fun x hx hkey hlive => hnew (x.1, some x.2) (List.mem_map.mpr ⟨x, hx, rfl⟩) rfl hkey
        (by rw [hflow₀]; exact hlive))
    rw [hkeeps.flow, hflow₀]
    exact hstep

theorem step_refines {e : Event} (h : step K m e = some m') (hC : PostsIf C m e) :
    Refines K C m m' := by
  cases e with
  | workerHandles i =>
      simp only [step, workerHandles] at h
      split at h
      · cases h
      · next w hw =>
        split at h
        · cases h
        · next message inbox hinbox =>
          obtain rfl := Option.some.inj h
          exact fun hm => ⟨hm, .single (.handle m.flow i w hw message inbox hinbox)⟩
  | workerReply i reply => exact workerReply_refines h
  | workerError i =>
      simp only [step] at h
      split at h
      · obtain rfl := Option.some.inj h
        exact disableWorkers_refines m
      · cases h
  | bitmapsReady promise =>
      obtain ⟨deltas, -, rfl⟩ := Option.map_eq_some_iff.mp h
      have htaken : Refines K C m
          { m with bitmapPromises := m.bitmapPromises.eraseIdx promise } :=
        fun hm => ⟨hm, .refl⟩
      exact htaken.trans (endTransactionHandleBitmaps_refines _ deltas)
  | endTransaction callback =>
      obtain rfl := Option.some.inj h
      exact endTransaction_refines m callback hC
  | beginTransaction =>
      obtain rfl := Option.some.inj h
      exact fun hm => ⟨hm, .refl⟩
  | onTileMsg coords distance wireId img =>
      obtain rfl := Option.some.inj h
      exact onTileMsg_refines m coords distance wireId img
  | createTile coords =>
      obtain rfl := Option.some.inj h
      exact createTile_refines coords
  | makeTileCurrent key =>
      obtain rfl := Option.some.inj h
      exact makeTileCurrent_refines m key
  | updateAllTileDistances distance =>
      obtain rfl := Option.some.inj h
      exact (refines_mapValues_same (f := fun t => { t with distanceFromView := distance t.coords })
        (fun _ => rfl) fun _ => rfl).trans fun hm => ⟨hm, .refl⟩
  | garbageCollect discardAll =>
      obtain rfl := Option.some.inj h
      exact garbageCollect_refines m discardAll
  | reclaimTileBitmapMemory key =>
      obtain rfl := Option.some.inj h
      exact reclaimTileBitmapMemory_refines key
  | reclaimGraphicsMemory =>
      obtain rfl := Option.some.inj h
      apply Refines.foldl
      intro m key
      have hqueued : Refines K C m
          (if m.distanceOf key = 0 then
            { m with dehydratedCurrentTiles := m.dehydratedCurrentTiles ++ [key] }
          else m) := .ite (fun _ => fun hm => ⟨hm, .refl⟩) fun _ => .refl m
      exact hqueued.trans (reclaimTileBitmapMemory_refines key)
  | rehydrateTile key =>
      obtain rfl := Option.some.inj h
      exact rehydrateTile_refines m key false
  | rehydrateCurrentTile =>
      obtain rfl := Option.some.inj h
      rw [rehydrateCurrentTile]
      split
      · exact .refl m
      · have htaken : Refines K C m
            { m with dehydratedCurrentTiles := m.dehydratedCurrentTiles.dropLast } :=
          fun hm => ⟨hm, .refl⟩
        exact htaken.trans (rehydrateTile_refines _ _ false)
  | tileReady coords =>
      obtain rfl := Option.some.inj h
      exact tileReady_refines m coords
  | removeTile key =>
      obtain rfl := Option.some.inj h
      exact removeTile_refines m key
  | removeAllTiles =>
      obtain rfl := Option.some.inj h
      exact removeAllTiles_refines m
  | invalidateTile key wireId =>
      obtain rfl := Option.some.inj h
      rw [invalidateTile]
      split
      · exact .refl m
      · apply Refines.ite
        · intro _
          exact refines_modifyTile_same
            (f := fun t => t.forceKeyframe (if wireId = 0 then t.wireId else wireId))
            (fun _ => rfl) fun _ => rfl
        · exact fun _ => removeTile_refines m key
  | refreshTilesInBackground =>
      obtain rfl := Option.some.inj h
      exact refines_mapValues_same (fun _ => rfl) fun _ => rfl

end TileManager

end CoolOnline.Browser
