import CoolOnline.Wsd.KitRequest
import Mathlib.Data.List.Forall2

/-! # Requested keyframes

Whether the message that the Kit is sent for a tile asks for a keyframe where the tile cache has no
data of the tile, for each way that a request takes.
-/

namespace CoolOnline.Wsd

variable {σ : Type}

/-- Each tile that the cache has no data of is asked for as a forced keyframe. -/
def Agrees (c : TileCache σ) (r : KitRequest) : Prop :=
  List.Forall₂ (fun tile oldWireId => c.lookupTile tile = none → oldWireId = 0) r.tiles
    (oldWireIds r.message)

/-- A tile that is to be rendered: a forced keyframe if the cache has no data of it. -/
structure Renderable (c : TileCache σ) (tile : TileDesc) : Prop where
  typed : Typed tile
  keyframe : c.lookupTile tile = none → tile.oldWireId = 0

/-! ## Tiles of the same parameters -/

def combineParams (t : TileDesc) : List Int :=
  [t.part, t.mode, t.width, t.height, t.tileWidth, t.tileHeight, t.canonicalViewId]

theorem sameTileCombineParams_iff {t other : TileDesc} :
    t.sameTileCombineParams other = true ↔ combineParams t = combineParams other := by
  simp only [TileDesc.sameTileCombineParams, combineParams, Bool.and_eq_true, beq_iff_eq,
    List.cons.injEq, and_true]
  constructor <;> intro h <;> simp [h]

theorem sendTileCombine_agrees {c : TileCache σ} {tiles : List TileDesc} (hne : tiles ≠ [])
    (htiles : ∀ t ∈ tiles, Renderable c t)
    (hsame : ∀ a ∈ tiles, ∀ b ∈ tiles, combineParams a = combineParams b) :
    ∃ r, sendTileCombine tiles = some r ∧ Agrees c r := by
  obtain ⟨first, rest, rfl⟩ := List.exists_cons_of_ne_nil hne
  obtain ⟨message, hsend, hids⟩ := sendTileCombine_eq (fun t ht => (htiles t ht).typed)
    fun t ht => sameTileCombineParams_iff.mpr (hsame first (by simp) t ht)
  refine ⟨_, hsend, ?_⟩
  rw [Agrees, hids, List.forall₂_map_right_iff, List.forall₂_same]
  exact fun t ht => (htiles t ht).keyframe

/-- The tiles of a group have the same parameters, and are tiles of the request. -/
structure Grouped (tiles group : List TileDesc) : Prop where
  nonempty : group ≠ []
  subset : group ⊆ tiles
  same : ∀ a ∈ group, ∀ b ∈ group, combineParams a = combineParams b

theorem Grouped.add {tiles group : List TileDesc} {tile : TileDesc} (h : Grouped tiles group)
    (htile : tile ∈ tiles)
    (hmatch : (group.head?.any fun first => tile.sameTileCombineParams first) = true) :
    Grouped tiles (group ++ [tile]) := by
  obtain ⟨first, rest, rfl⟩ := List.exists_cons_of_ne_nil h.nonempty
  have hparams : combineParams tile = combineParams first :=
    sameTileCombineParams_iff.mp (by simpa using hmatch)
  have hall : ∀ a ∈ first :: rest ++ [tile], combineParams a = combineParams first := by
    intro a ha
    rcases List.mem_append.mp ha with ha | ha
    · exact h.same a ha first (by simp)
    · rw [List.mem_singleton.mp ha]
      exact hparams
  constructor
  · simp
  · exact List.append_subset.mpr ⟨h.subset, by simpa using htile⟩
  · exact fun a ha b hb => (hall a ha).trans (hall b hb).symm

namespace TileBroker

theorem addToGroup_grouped {tiles : List TileDesc} {tile : TileDesc} (htile : tile ∈ tiles)
    {groups : List (List TileDesc)} (h : ∀ group ∈ groups, Grouped tiles group) :
    ∀ group ∈ addToGroup tile groups, Grouped tiles group := by
  induction groups with
  | nil =>
      intro group hgroup
      obtain rfl : group = [tile] := by simpa [addToGroup] using hgroup
      exact ⟨by simp, by simpa using htile, by simp⟩
  | cons first groups ih =>
      have hrest := ih fun group hgroup => h group (by simp [hgroup])
      have hfirst := h first (by simp)
      intro group hgroup
      rw [addToGroup] at hgroup
      split at hgroup
      case isTrue hmatch =>
        rcases List.mem_cons.mp hgroup with rfl | hgroup
        · exact hfirst.add htile hmatch
        · exact h group (by simp [hgroup])
      case isFalse =>
        rcases List.mem_cons.mp hgroup with rfl | hgroup
        · exact hfirst
        · exact hrest group hgroup

theorem groupsOf_grouped (tiles : List TileDesc) :
    ∀ group ∈ groupsOf tiles, Grouped tiles group := by
  have hfold : ∀ (rest : List TileDesc) (groups : List (List TileDesc)), rest ⊆ tiles →
      (∀ group ∈ groups, Grouped tiles group) →
      ∀ group ∈ rest.foldl (fun groups tile => addToGroup tile groups) groups,
        Grouped tiles group := by
    intro rest
    induction rest with
    | nil => exact fun groups _ h => h
    | cons tile rest ih =>
        intro groups hsubset h
        obtain ⟨htile, hrest⟩ := List.cons_subset.mp hsubset
        exact ih _ hrest (addToGroup_grouped htile h)
  exact hfold tiles [] (List.Subset.refl _) (by simp)

theorem mapM_agrees {c : TileCache σ} {groups : List (List TileDesc)}
    (h : ∀ group ∈ groups, ∃ r, sendTileCombine group = some r ∧ Agrees c r) :
    ∃ messages, groups.mapM sendTileCombine = some messages ∧ ∀ r ∈ messages, Agrees c r := by
  induction groups with
  | nil => exact ⟨[], by simp, by simp⟩
  | cons group groups ih =>
      obtain ⟨r, hsend, hagrees⟩ := h group (by simp)
      obtain ⟨messages, hrest, hall⟩ := ih fun group hgroup => h group (by simp [hgroup])
      exact ⟨r :: messages, by simp [List.mapM_cons, hsend, hrest],
        by simpa [hagrees] using hall⟩

theorem sendGroups_agrees {c : TileCache σ} {tiles : List TileDesc} (allSamePartAndSize : Bool)
    (htiles : ∀ t ∈ tiles, Renderable c t)
    (hsame : allSamePartAndSize = true →
      ∀ a ∈ tiles, ∀ b ∈ tiles, combineParams a = combineParams b) :
    ∃ messages, sendGroups tiles allSamePartAndSize = some messages ∧
      ∀ r ∈ messages, Agrees c r := by
  by_cases hne : tiles = []
  · exact ⟨[], by simp [sendGroups, hne], by simp⟩
  · rw [sendGroups, if_neg hne]
    apply mapM_agrees
    cases allSamePartAndSize with
    | true =>
        intro group hgroup
        obtain rfl : group = tiles := by simpa using hgroup
        exact sendTileCombine_agrees hne htiles (hsame rfl)
    | false =>
        intro group hgroup
        have hgrouped := groupsOf_grouped tiles group (by simpa using hgroup)
        exact sendTileCombine_agrees hgrouped.nonempty
          (fun t ht => htiles t (hgrouped.subset ht)) hgrouped.same

/-! ## What the paths preserve -/

/-- The tile cache has the data that it had. -/
def SameData (c c' : TileCache σ) : Prop := ∀ desc, c'.lookupTile desc = c.lookupTile desc

variable [DecidableEq σ]

theorem requestTileRendering_sameData {c c' : TileCache σ} (h : SameData c c') (tile : TileDesc)
    (forceKeyframe : Bool) (version now : Int) (tiles : List TileDesc) (session : σ) :
    SameData c (c'.requestTileRendering tile forceKeyframe version now tiles session).tileCache :=
  fun desc => (TileCache.subscribeToTileRendering_lookupTile _ _ _ _ _).trans (h desc)

/-- The tiles to be rendered, after a tile was requested or was found to be in progress. -/
structure Rendering (c : TileCache σ) (tiles : List TileDesc) (allSamePartAndSize : Bool) :
    Prop where
  renderable : ∀ t ∈ tiles, Renderable c t
  same : allSamePartAndSize = true → ∀ a ∈ tiles, ∀ b ∈ tiles, combineParams a = combineParams b

omit [DecidableEq σ] in
theorem Rendering.add {c : TileCache σ} {tiles : List TileDesc} {allSame : Bool} {tile : TileDesc}
    (h : Rendering c tiles allSame) (htile : Renderable c tile) :
    Rendering c (tiles ++ [tile])
      (allSame && tiles.getLast?.all fun last => tile.sameTileCombineParams last) := by
  constructor
  case renderable =>
    intro t ht
    rcases List.mem_append.mp ht with ht | ht
    · exact h.renderable t ht
    · rw [List.mem_singleton.mp ht]
      exact htile
  case same =>
    intro hall
    obtain ⟨hbefore, hlast⟩ := Bool.and_eq_true_iff.mp hall
    have hparams : ∀ a ∈ tiles ++ [tile], combineParams a = combineParams tile := by
      intro a ha
      rcases List.mem_append.mp ha with ha | ha
      · obtain ⟨last, hmem⟩ : ∃ last, tiles.getLast? = some last :=
          Option.isSome_iff_exists.mp (by simp [List.ne_nil_of_mem ha])
        rw [hmem] at hlast
        exact (h.same hbefore a ha last (List.mem_of_getLast? hmem)).trans
          (sameTileCombineParams_iff.mp hlast).symm
      · rw [List.mem_singleton.mp ha]
    exact fun a ha b hb => (hparams a ha).trans (hparams b hb).symm

omit [DecidableEq σ] in
theorem Rendering.of_params {c : TileCache σ} {tiles : List TileDesc} {params : List Int}
    (h : ∀ t ∈ tiles, Renderable c t ∧ combineParams t = params) : Rendering c tiles true :=
  ⟨fun t ht => (h t ht).1, fun _ a ha b hb => (h a ha).2.trans (h b hb).2.symm⟩

/-- A tile that the cache has no data of is requested as a forced keyframe, unless its rendering
is in progress. -/
theorem requestTileRendering_cases {c c' : TileCache σ} {tile : TileDesc} {forceKeyframe : Bool}
    {version : Int} (htyped : Typed tile) (hversion : IsInt32 version)
    (hforce : c.lookupTile tile = none → forceKeyframe = true) {now : Int}
    {tiles : List TileDesc} {session : σ} {requested : TileCache.Requested σ}
    (hrequested : c'.requestTileRendering tile forceKeyframe version now tiles session =
      requested) :
    Typed requested.tile ∧
    ((requested.tilesNeedsRendering = tiles ∧ requested.allSamePartAndSize = true) ∨
      ∃ t, Renderable c t ∧ combineParams t = combineParams tile ∧
        requested.tilesNeedsRendering = tiles ++ [t] ∧
        requested.allSamePartAndSize =
          tiles.getLast?.all fun last => t.sameTileCombineParams last) := by
  subst hrequested
  simp only [TileCache.requestTileRendering]
  cases c'.needsRendering tile now with
  | false => exact ⟨htyped, .inl ⟨rfl, rfl⟩⟩
  | true =>
      have htyped' : Typed { tile with
          ver := version, oldWireId := if forceKeyframe then 0 else tile.oldWireId } := by
        apply htyped.setVersion hversion
        split
        · decide
        · exact htyped.wellFormed.oldWireId
      refine ⟨htyped', .inr ⟨_, ⟨htyped', fun hnone => ?_⟩, rfl, rfl, rfl⟩⟩
      have hforced := hforce hnone
      simp [hforced]

/-! ## The requested tiles of a session -/

/-- What the loop over the requested tiles keeps. -/
structure RequestedScan.Keeps (c : TileCache σ) (view : Int) (s : RequestedScan σ) : Prop where
  sameData : SameData c s.tileCache
  rendering : Rendering c s.tilesNeedsRendering s.allSamePartAndSize
  version : s.bumpedVersion = true → IsInt32 s.tileVersion
  view : s.session.canonicalViewId = view

theorem RequestedScan.Keeps.next {c : TileCache σ} {view : Int} {s : RequestedScan σ}
    (h : s.Keeps c view) {tile : TileDesc} (htyped : Typed tile) (env : TileEnv) (subscriber : σ) :
    (s.next env subscriber tile).Keeps c view := by
  rw [RequestedScan.next]
  cases (s.tileCache.lookupTile tile).filter TileData.valid with
  | some cachedTile => exact ⟨h.sameData, h.rendering, h.version, h.view⟩
  | none =>
      have hversion : IsInt32 (if s.bumpedVersion = true then s.tileVersion
          else nextVersion s.tileVersion) := by
        split
        case isTrue hbumped => exact h.version hbumped
        case isFalse => exact isInt32_toInt32 _
      have hforce : c.lookupTile tile = none → (s.tileCache.lookupTile tile).isNone = true := by
        intro hnone
        rw [h.sameData tile, hnone]
        rfl
      generalize (if s.bumpedVersion = true then s.tileVersion
        else nextVersion s.tileVersion) = version at hversion ⊢
      dsimp only
      generalize hrequested : s.tileCache.requestTileRendering tile
        (s.tileCache.lookupTile tile).isNone version env.now s.tilesNeedsRendering subscriber =
          requested
      have hdata : SameData c requested.tileCache :=
        hrequested ▸ requestTileRendering_sameData h.sameData _ _ _ _ _ _
      refine ⟨hdata, ?_, fun _ => hversion, h.view⟩
      rcases (requestTileRendering_cases htyped hversion hforce hrequested).2 with
        ⟨htiles, hall⟩ | ⟨t, ht, -, htiles, hall⟩
      · simpa only [htiles, hall, Bool.and_true] using h.rendering
      · simpa only [htiles, hall] using h.rendering.add ht

omit [DecidableEq σ] in
theorem scanStart_keeps {c c' : TileCache σ} (tileVersion : Int) (hdata : SameData c c')
    (s : TileSession) :
    (⟨tileVersion, false, c', s, [], true⟩ : RequestedScan σ).Keeps c s.canonicalViewId :=
  ⟨hdata, ⟨by simp, by simp⟩, by simp, rfl⟩

theorem requestedLoop_keeps {c : TileCache σ} {view : Int} (env : TileEnv) (subscriber : σ)
    {requestedTiles : List TileDesc} {s : RequestedScan σ}
    (htiles : ∀ t ∈ requestedTiles, Typed t) (h : s.Keeps c view) :
    (requestedLoop env subscriber requestedTiles s).2.Keeps c view ∧
      (requestedLoop env subscriber requestedTiles s).1 ⊆ requestedTiles := by
  induction requestedTiles generalizing s with
  | nil => exact ⟨h, List.Subset.refl _⟩
  | cons tile rest ih =>
      rw [requestedLoop]
      split
      case isTrue =>
        obtain ⟨hkeeps, hsubset⟩ := ih (fun t ht => htiles t (by simp [ht]))
          (h.next (htiles tile (by simp)) env subscriber)
        exact ⟨hkeeps, List.subset_cons_of_subset _ hsubset⟩
      case isFalse => exact ⟨h, List.Subset.refl _⟩

/-- The sessions have valid views, and valid tiles that are requested. -/
def SessionsTyped (b : TileBroker σ) : Prop :=
  ∀ session, 0 ≤ (b.sessions session).canonicalViewId ∧
    IsInt32 (b.sessions session).canonicalViewId ∧
    ∀ t ∈ (b.sessions session).requestedTiles, Typed t

theorem SessionsTyped.update {b : TileBroker σ} (hb : b.SessionsTyped) (session : σ)
    {s : TileSession} (hview : s.canonicalViewId = (b.sessions session).canonicalViewId)
    (htiles : ∀ t ∈ s.requestedTiles, Typed t) : (b.updateSession session s).SessionsTyped := by
  intro session'
  by_cases hsession : session' = session
  · subst hsession
    simp only [updateSession, Function.update_self, hview]
    exact ⟨(hb session').1, (hb session').2.1, htiles⟩
  · simpa [updateSession, hsession] using hb session'

theorem sendRequestedTiles_agrees {b : TileBroker σ} {c c' : TileCache σ} (hb : b.SessionsTyped)
    (hcache : b.tileCache = some c') (hdata : SameData c c') (env : TileEnv) (session : σ) :
    ∃ b' messages, b.sendRequestedTiles env session = some (b', messages) ∧ b'.SessionsTyped ∧
      ∀ r ∈ messages, Agrees c r := by
  have htiles : ∀ t ∈ ((b.sessions session).removeOutdatedTilesOnFly env.now).requestedTiles,
      Typed t := (hb session).2.2
  obtain ⟨hkeeps, hsubset⟩ := requestedLoop_keeps env session htiles
    (scanStart_keeps (b.tileVersion) hdata
      ((b.sessions session).removeOutdatedTilesOnFly env.now))
  simp only [sendRequestedTiles, hcache]
  generalize requestedLoop env session
    ((b.sessions session).removeOutdatedTilesOnFly env.now).requestedTiles
      ⟨b.tileVersion, false, c', (b.sessions session).removeOutdatedTilesOnFly env.now, [], true⟩ =
        result at hkeeps hsubset ⊢
  obtain ⟨requestedTiles, scan⟩ := result
  obtain ⟨messages, hsend, hagrees⟩ :=
    sendGroups_agrees _ hkeeps.rendering.renderable hkeeps.rendering.same
  refine ⟨_, messages, by rw [hsend]; rfl, ?_, hagrees⟩
  exact hb.update session hkeeps.view fun t ht => htiles t (hsubset ht)

/-! ## Combined tiles -/

/-- What the loop over the tiles of a combined request keeps. -/
structure CombinedScan.Keeps (c : TileCache σ) (params : List Int) (s : CombinedScan σ) :
    Prop where
  sameData : SameData c s.tileCache
  renderable : ∀ t ∈ s.tilesNeedsRendering, Renderable c t ∧ combineParams t = params
  tiles : ∀ t ∈ s.tiles, Typed t

theorem CombinedScan.Keeps.next {c : TileCache σ} {params : List Int} {s : CombinedScan σ}
    (h : s.Keeps c params) {tile : TileDesc} (htyped : Typed tile)
    (hparams : combineParams tile = params) {version : Int} (hversion : IsInt32 version)
    (env : TileEnv) (canForceKeyframe : Bool) (subscriber : σ) :
    (s.next env canForceKeyframe version subscriber tile).Keeps c params := by
  have hnew (n : Nat) (hn : n < 2 ^ 32) : Typed { tile with ver := version, oldWireId := n } :=
    htyped.setVersion hversion hn
  have hold := htyped.wellFormed.oldWireId
  have htiles {t : TileDesc} (ht : Typed t) : ∀ t' ∈ s.tiles ++ [t], Typed t' := by
    intro t' ht'
    rcases List.mem_append.mp ht' with ht' | ht'
    · exact h.tiles t' ht'
    · rw [List.mem_singleton.mp ht']
      exact ht
  rw [CombinedScan.next]
  dsimp only
  have hn : (if (canForceKeyframe && tile.isForcedKeyFrame) = true then 1 else tile.oldWireId) <
      2 ^ 32 := by
    split
    · decide
    · exact hold
  generalize (if (canForceKeyframe && tile.isForcedKeyFrame) = true then 1
    else tile.oldWireId) = n at hn ⊢
  have hlookup : s.tileCache.lookupTile { tile with ver := version, oldWireId := n } =
      c.lookupTile tile := h.sameData _
  rw [hlookup]
  split
  case isTrue =>
    have hforce : c.lookupTile tile = none →
        ((c.lookupTile tile).isNone || (c.lookupTile tile).any TileData.tooLarge) = true := by
      intro hnone
      simp [hnone]
    generalize ((c.lookupTile tile).isNone || (c.lookupTile tile).any TileData.tooLarge) =
      forceKeyFrame at hforce ⊢
    have htyped' : Typed { tile with
        ver := version, oldWireId := if forceKeyFrame then 0 else n } := by
      apply hnew
      split
      · decide
      · exact hn
    generalize hrequested : s.tileCache.requestTileRendering { tile with
      ver := version, oldWireId := if forceKeyFrame then 0 else n } forceKeyFrame version env.now
        s.tilesNeedsRendering subscriber = requested
    have hdata : SameData c requested.tileCache :=
      hrequested ▸ requestTileRendering_sameData h.sameData _ _ _ _ _ _
    obtain ⟨htile, hcases⟩ := requestTileRendering_cases htyped' hversion hforce hrequested
    refine ⟨hdata, ?_, htiles htile⟩
    rcases hcases with ⟨hneeds, -⟩ | ⟨t, ht, hsame, hneeds, -⟩
    · simpa only [hneeds] using h.renderable
    · intro t' ht'
      rcases List.mem_append.mp (hneeds ▸ ht') with ht' | ht'
      · exact h.renderable t' ht'
      · rw [List.mem_singleton.mp ht']
        exact ⟨ht, hsame.trans hparams⟩
  case isFalse => exact ⟨h.sameData, h.renderable, htiles (hnew n hn)⟩

theorem foldl_next_keeps {c : TileCache σ} {params : List Int} {tiles : List TileDesc}
    {s : CombinedScan σ} (h : s.Keeps c params)
    (htiles : ∀ t ∈ tiles, Typed t ∧ combineParams t = params) {version : Int}
    (hversion : IsInt32 version) (env : TileEnv) (canForceKeyframe : Bool) (subscriber : σ) :
    (tiles.foldl (CombinedScan.next env canForceKeyframe version subscriber) s).Keeps c params := by
  induction tiles generalizing s with
  | nil => exact h
  | cons tile tiles ih =>
      obtain ⟨htyped, hparams⟩ := htiles tile (by simp)
      exact ih (h.next htyped hparams hversion env canForceKeyframe subscriber) fun t ht =>
        htiles t (by simp [ht])

omit [DecidableEq σ] in
theorem addRequested_typed {requestedTiles : List TileDesc} {newTile : TileDesc}
    (h : ∀ t ∈ requestedTiles, Typed t) (hnew : Typed newTile) :
    ∀ t ∈ addRequested requestedTiles newTile, Typed t := by
  induction requestedTiles with
  | nil => simpa [addRequested] using hnew
  | cons oldTile rest ih =>
      have hrest := ih fun t ht => h t (by simp [ht])
      have hold := h oldTile (by simp)
      rw [addRequested]
      split
      case isTrue =>
        have hids := hold.setIds hnew.wellFormed.ver hnew.wellFormed.oldWireId
          hnew.wellFormed.wireId
        intro t ht
        rcases List.mem_cons.mp ht with rfl | ht
        · exact hids
        · exact h t (by simp [ht])
      case isFalse =>
        intro t ht
        rcases List.mem_cons.mp ht with rfl | ht
        · exact hold
        · exact hrest t ht

omit [DecidableEq σ] in
theorem accumulateTiles_typed {canonicalViewId : Int} {requestedTiles tiles : List TileDesc}
    (hview : 0 ≤ canonicalViewId ∧ IsInt32 canonicalViewId)
    (h : ∀ t ∈ requestedTiles, Typed t) (htiles : ∀ t ∈ tiles, Typed t) :
    ∀ t ∈ accumulateTiles canonicalViewId requestedTiles tiles, Typed t := by
  have hfold : ∀ (tiles requested : List TileDesc), (∀ t ∈ tiles, Typed t) →
      (∀ t ∈ requested, Typed t) → ∀ t ∈ tiles.foldl addRequested requested, Typed t := by
    intro tiles
    induction tiles with
    | nil => exact fun requested _ h => h
    | cons tile tiles ih =>
        intro requested htiles h
        exact ih _ (fun t ht => htiles t (by simp [ht]))
          (addRequested_typed h (htiles tile (by simp)))
  rw [accumulateTiles]
  split
  case isTrue => exact htiles
  case isFalse =>
    apply hfold tiles _ htiles
    intro t ht
    obtain ⟨t', ht', rfl⟩ := List.mem_map.mp ht
    exact (h t' ht').setCanonicalViewId hview

theorem handleTileCombinedRequest_agrees {b : TileBroker σ} {c : TileCache σ}
    (hb : b.SessionsTyped) (hcache : b.tileCache = some c) {tileCombined : TileCombined}
    {params : List Int} (htiles : ∀ t ∈ tileCombined.tiles, Typed t ∧ combineParams t = params)
    (env : TileEnv) (canForceKeyframe : Bool) (session : σ) :
    ∃ b' messages, b.handleTileCombinedRequest env tileCombined canForceKeyframe session =
        some (b', messages) ∧ b'.SessionsTyped ∧ ∀ r ∈ messages, Agrees c r := by
  have hkeeps := foldl_next_keeps (s := ⟨c, (b.sessions session).tracker, [], [], false⟩)
    ⟨fun _ => rfl, by simp, by simp⟩ htiles (isInt32_toInt32 (b.tileVersion + 1)) env
      canForceKeyframe session
  simp only [handleTileCombinedRequest, hcache]
  rw [← nextVersion] at hkeeps
  generalize tileCombined.tiles.foldl
    (CombinedScan.next env canForceKeyframe (nextVersion b.tileVersion) session)
      ⟨c, (b.sessions session).tracker, [], [], false⟩ = scan at hkeeps ⊢
  obtain ⟨rendered, hsend, hrendered⟩ := sendGroups_agrees true
    (fun t ht => (hkeeps.renderable t ht).1)
    (Rendering.of_params hkeeps.renderable).same
  rw [hsend]
  obtain ⟨hview, hint, hrequested⟩ := hb session
  have hb' := hb.update session (s := { b.sessions session with
    tracker := scan.tracker
    requestedTiles := accumulateTiles (b.sessions session).canonicalViewId
      (b.sessions session).requestedTiles scan.tiles }) rfl
        (accumulateTiles_typed ⟨hview, hint⟩ hrequested hkeeps.tiles)
  obtain ⟨b', messages, hrequest, htyped, hagrees⟩ := sendRequestedTiles_agrees (c := c)
    (b := { b.updateSession session _ with
      tileVersion := nextVersion b.tileVersion, tileCache := some scan.tileCache })
    hb' rfl hkeeps.sameData env session
  refine ⟨b', rendered ++ messages, ?_, htyped, ?_⟩
  · rw [Option.bind_some, hrequest]
    rfl
  · intro r hr
    rcases List.mem_append.mp hr with hr | hr
    · exact hrendered r hr
    · exact hagrees r hr

/-! ## Single tiles -/

omit [DecidableEq σ] in
theorem agrees_tile_iff {c : TileCache σ} {tile sent : TileDesc} :
    Agrees c ⟨[tile], Word.tileRequest ++ [' '] ++ sent.serialize [] []⟩ ↔
      (c.lookupTile tile = none → sent.oldWireId = 0) := by
  simp only [Agrees]
  rw [oldWireIds_tile]
  simp only [List.forall₂_cons, List.forall₂_nil_left_iff, and_true, readOldWireId_eq_zero_iff]

/-- A tile that is not sent from the cache is rendered. The message is made before the tile is
forced to be a keyframe. -/
theorem handleTileRequest_cases {b b' : TileBroker σ} {c : TileCache σ} {env : TileEnv}
    {message : Payload} {forceKeyframe : Bool} {session : σ} {messages : List KitRequest}
    {tile : TileDesc} (hcache : b.tileCache = some c) (hparse : TileDesc.parse message = some tile)
    (h : b.handleTileRequest env message forceKeyframe session = some (b', messages)) :
    (c.lookupTile (b.parsedTile session tile) ≠ none ∧ messages = []) ∨
      ∃ sent, cacheKey sent = cacheKey (b.parsedTile session tile) ∧
        messages = [⟨[sent],
          Word.tileRequest ++ [' '] ++ (b.parsedTile session tile).serialize [] []⟩] := by
  simp only [handleTileRequest, hparse, Option.map_some, hcache, Option.some.injEq] at h
  cases hlookup : (c.lookupTile (b.parsedTile session tile)).filter TileData.valid with
  | some cachedTile =>
      left
      rw [hlookup] at h
      refine ⟨?_, (congrArg Prod.snd h).symm⟩
      intro hnone
      rw [hnone] at hlookup
      cases hlookup
  | none =>
      right
      rw [hlookup] at h
      refine ⟨_, ?_, (congrArg Prod.snd h).symm⟩
      split <;> rfl

theorem handleTileRequest_agrees_iff {b b' : TileBroker σ} {c : TileCache σ} {env : TileEnv}
    {message : Payload} {forceKeyframe : Bool} {session : σ} {messages : List KitRequest}
    {tile : TileDesc} (hcache : b.tileCache = some c) (hparse : TileDesc.parse message = some tile)
    (h : b.handleTileRequest env message forceKeyframe session = some (b', messages)) :
    (∀ r ∈ messages, Agrees c r) ↔
      (c.lookupTile (b.parsedTile session tile) = none → tile.oldWireId = 0) := by
  rcases handleTileRequest_cases hcache hparse h with ⟨hcached, rfl⟩ | ⟨sent, hkey, rfl⟩
  · simp [hcached]
  · rw [List.forall_mem_singleton, agrees_tile_iff, c.lookupTile_congr hkey]
    rfl

/-! ## All requests -/

/-- What the callers pass: combined tiles that fit their parameters. -/
def RequestTyped : TileRequest → Prop
  | .tilecombine tileCombined _ => tileCombined.Uniform
  | _ => True

theorem typed_of_uniform {tileCombined : TileCombined} (h : tileCombined.Uniform) :
    ∀ t ∈ tileCombined.tiles, Typed t ∧
      combineParams t = [tileCombined.part, tileCombined.mode, tileCombined.width,
        tileCombined.height, tileCombined.tileWidth, tileCombined.tileHeight,
        tileCombined.canonicalViewId] := by
  intro t ht
  obtain ⟨⟨hvalid, hx, hy, hver, himg, hold, hwid⟩, hsame⟩ := h.describes t ht
  simp only [TileDesc.mk.injEq] at hsame
  obtain ⟨hview, hpart, hmode, hwidth, hheight, -, -, htileWidth, htileHeight, -⟩ := hsame
  obtain ⟨hview', hpart', hmode', hwidth', hheight', htileWidth', htileHeight'⟩ := h.params
  refine ⟨⟨⟨hvalid, hx, hy, hver, himg, hold, hwid⟩, ?_⟩, ?_⟩
  · constructor <;> simp [TileCombined.ofTile, TileCombined.ofParams, *]
  · simp [combineParams, *]

/-- What a client asks for is typed, in the view of its session. -/
theorem requestTyped_client {message : Payload} {tileCombined : TileCombined} {view : Int}
    (hparse : TileCombined.parse message = some tileCombined) (hview : 0 ≤ view ∧ IsInt32 view)
    (canForceKeyframe : Bool) :
    RequestTyped (.tilecombine (setCanonicalViewId tileCombined view) canForceKeyframe) := by
  obtain ⟨huniform, -⟩ := TileCombined.Uniform.of_parse hparse
  obtain ⟨-, hpart, hmode, hwidth, hheight, htileWidth, htileHeight⟩ := huniform.params
  refine ⟨⟨hview.2, hpart, hmode, hwidth, hheight, htileWidth, htileHeight⟩, fun t ht => ?_⟩
  obtain ⟨t', ht', rfl⟩ := List.mem_map.mp ht
  have htyped := ((typed_of_uniform huniform t' ht').1.setCanonicalViewId hview).wellFormed
  obtain ⟨-, hsame⟩ := huniform.describes t' ht'
  simp only [TileDesc.mk.injEq] at hsame
  refine ⟨⟨htyped.valid, htyped.tilePosX, htyped.tilePosY, htyped.ver, htyped.imgSize,
    htyped.oldWireId, htyped.wireId⟩, ?_⟩
  simp [setCanonicalViewId, hsame]

/-- What wsd asks for is typed. -/
theorem requestTyped_wsd {tiles : List TileDesc} {tileCombined : TileCombined}
    (htiles : ∀ t ∈ tiles, Typed t) (hcreate : TileCombined.create tiles = some tileCombined)
    (canForceKeyframe : Bool) : RequestTyped (.tilecombine tileCombined canForceKeyframe) := by
  obtain ⟨first, hfirst, hnew⟩ := Option.bind_eq_some_iff.mp hcreate
  obtain ⟨hview, hpart, hmode, hwidth, hheight, htileWidth, htileHeight⟩ :=
    (htiles first (List.mem_of_mem_head? hfirst)).params
  exact (TileCombined.Uniform.of_new
    ⟨hview, hpart, hmode, hwidth, hheight, htileWidth, htileHeight⟩ hnew).1

theorem handleTileRequest_sessionsTyped {b b' : TileBroker σ} {env : TileEnv} {message : Payload}
    {forceKeyframe : Bool} {session : σ} {messages : List KitRequest} (hb : b.SessionsTyped)
    (h : b.handleTileRequest env message forceKeyframe session = some (b', messages)) :
    b'.SessionsTyped := by
  obtain ⟨tile, -, h⟩ := Option.map_eq_some_iff.mp h
  replace h := congrArg Prod.fst h
  dsimp only at h
  rw [← h]
  have hrequested := (hb session).2.2
  cases hcache : b.tileCache with
  | none => exact hb
  | some c =>
      dsimp only
      -- the tracker and the tiles on the fly change, neither of which is typed here
      split
      · apply SessionsTyped.update (b := { b with tileVersion := _ }) hb
        · split <;> rfl
        · split <;> exact hrequested
      · apply SessionsTyped.update (b := { b with tileVersion := _ }) hb
        · split <;> rfl
        · split <;> exact hrequested

/-- A request leaves the sessions typed. -/
theorem handle_sessionsTyped {b b' : TileBroker σ} {env : TileEnv} {session : σ}
    {request : TileRequest} {messages : List KitRequest} (hb : b.SessionsTyped)
    (hrequest : RequestTyped request)
    (h : b.handle env session request = some (b', messages)) : b'.SessionsTyped := by
  cases request with
  | tile message forceKeyframe => exact handleTileRequest_sessionsTyped hb h
  | tilecombine tileCombined canForceKeyframe =>
      cases hcache : b.tileCache with
      | none =>
          simp only [handle, handleTileCombinedRequest, hcache, Option.some.injEq,
            Prod.mk.injEq] at h
          exact h.1 ▸ hb
      | some c =>
          obtain ⟨b'', messages', heq, hkept, -⟩ := handleTileCombinedRequest_agrees hb hcache
            (typed_of_uniform hrequest) env canForceKeyframe session
          obtain ⟨rfl, -⟩ := Prod.mk.inj (Option.some.inj (heq.symm.trans h))
          exact hkept
  | requestedTiles =>
      cases hcache : b.tileCache with
      | none =>
          simp only [handle, sendRequestedTiles, hcache, Option.some.injEq, Prod.mk.injEq] at h
          rw [← h.1]
          exact hb.update session rfl (hb session).2.2
      | some c =>
          obtain ⟨b'', messages', heq, hkept, -⟩ := sendRequestedTiles_agrees hb hcache
            (fun _ => rfl) env session
          obtain ⟨rfl, -⟩ := Prod.mk.inj (Option.some.inj (heq.symm.trans h))
          exact hkept

/-- Every tile that the cache has no data of is asked for as a forced keyframe. -/
def RequestsAgree (b : TileBroker σ) (messages : List KitRequest) : Prop :=
  ∀ c, b.tileCache = some c → ∀ r ∈ messages, Agrees c r

/-- The request for a single tile has an old wire id of 0, if the cache has no data of the tile. -/
def KeyframeAsked (b : TileBroker σ) (session : σ) : TileRequest → Prop
  | .tile message _ => ∀ c tile, b.tileCache = some c → TileDesc.parse message = some tile →
      c.lookupTile (b.parsedTile session tile) = none → tile.oldWireId = 0
  | .tilecombine .. => True
  | .requestedTiles => True

/-- The paths of combined and of requested tiles always agree with the cache; that of a single tile
does where the request has an old wire id of 0 itself. -/
theorem requestsAgree_iff {b b' : TileBroker σ} {env : TileEnv} {session : σ}
    {request : TileRequest} {messages : List KitRequest} (hb : b.SessionsTyped)
    (hrequest : RequestTyped request)
    (h : b.handle env session request = some (b', messages)) :
    b.RequestsAgree messages ↔ b.KeyframeAsked session request := by
  cases request with
  | tile message forceKeyframe =>
      cases hparse : TileDesc.parse message with
      | none => simp [handle, handleTileRequest, hparse] at h
      | some tile =>
          have hiff {c : TileCache σ} (hcache : b.tileCache = some c) :=
            handleTileRequest_agrees_iff hcache hparse h
          constructor
          · intro hagree c tile' hcache hparse'
            obtain rfl : tile = tile' := Option.some.inj (hparse.symm.trans hparse')
            exact (hiff hcache).mp (hagree c hcache)
          · intro hasked c hcache
            exact (hiff hcache).mpr (hasked c tile hcache hparse)
  | tilecombine tileCombined canForceKeyframe =>
      simp only [KeyframeAsked, iff_true]
      intro c hcache
      obtain ⟨b'', messages', heq, -, hagrees⟩ := handleTileCombinedRequest_agrees hb hcache
        (typed_of_uniform hrequest) env canForceKeyframe session
      obtain ⟨-, rfl⟩ := Prod.mk.inj (Option.some.inj (heq.symm.trans h))
      exact hagrees
  | requestedTiles =>
      simp only [KeyframeAsked, iff_true]
      intro c hcache
      obtain ⟨b'', messages', heq, -, hagrees⟩ := sendRequestedTiles_agrees hb hcache
        (fun _ => rfl) env session
      obtain ⟨-, rfl⟩ := Prod.mk.inj (Option.some.inj (heq.symm.trans h))
      exact hagrees

/-! ## Runs on an empty cache -/

/-- A request of a client for a tile that it has a version of. -/
def tileRequestWith (oldWireId : String) : Payload :=
  ("tile nviewid=0 part=0 width=256 height=256 tileposx=0 tileposy=0 " ++
    "tilewidth=3840 tileheight=3840 oldwid=" ++ oldWireId).toList

/-- A document whose tile cache is empty. -/
def nothingCached : TileBroker Nat :=
  ⟨0, some (TileCache.new false), fun _ => ⟨0, fun _ => none, [], [], []⟩⟩

theorem nothingCached_tileCache : nothingCached.tileCache = some (TileCache.new false) :=
  rfl

def someTime : TileEnv := ⟨0, 200, fun _ => true⟩

/-- The Kit is asked for a delta of a tile that the cache has no data of. -/
theorem not_requestsAgree_tileRequest :
    ∃ b' messages, nothingCached.handle someTime 0 (.tile (tileRequestWith "5") true) =
      some (b', messages) ∧ ¬ nothingCached.RequestsAgree messages := by
  obtain ⟨tile, hparse, hold⟩ := exists_of_any
    (o := TileDesc.parse (tileRequestWith "5")) (P := fun tile => tile.oldWireId = 5)
    (by decide +kernel)
  have hsent : (nothingCached.handle someTime 0 (.tile (tileRequestWith "5") true)).isSome =
      true := by
    decide +kernel
  obtain ⟨⟨b', messages⟩, hsent⟩ := Option.isSome_iff_exists.mp hsent
  refine ⟨b', messages, hsent, fun hagree => ?_⟩
  have hzero := (handleTileRequest_agrees_iff nothingCached_tileCache hparse hsent).mp
    (hagree _ nothingCached_tileCache) rfl
  omega

theorem sessionsTyped_nothingCached : nothingCached.SessionsTyped := by
  intro session
  show 0 ≤ (0 : Int) ∧ IsInt32 0 ∧ ∀ t ∈ [], Typed t
  exact ⟨by decide, by decide, by simp⟩

theorem requestsAgree_tileRequest :
    ∃ b' messages, nothingCached.handle someTime 0 (.tile (tileRequestWith "0") true) =
      some (b', messages) ∧ messages.length = 1 ∧ nothingCached.RequestsAgree messages := by
  obtain ⟨⟨b', messages⟩, hsent, hone⟩ := exists_of_any
    (o := nothingCached.handle someTime 0 (.tile (tileRequestWith "0") true))
    (P := fun sent => sent.2.length = 1) (by decide +kernel)
  have htyped : RequestTyped (.tile (tileRequestWith "0") true) := trivial
  refine ⟨b', messages, hsent, hone, ?_⟩
  apply (requestsAgree_iff sessionsTyped_nothingCached htyped hsent).mpr
  intro c tile _ hparse _
  obtain ⟨tile', hparse', hold⟩ := exists_of_any
    (o := TileDesc.parse (tileRequestWith "0")) (P := fun tile => tile.oldWireId = 0)
    (by decide +kernel)
  obtain rfl : tile' = tile := Option.some.inj (hparse'.symm.trans hparse)
  exact hold

end TileBroker

end CoolOnline.Wsd
