import CoolOnline.Wsd.KeyframeRequest
import Mathlib.Data.List.Nodup

/-! # What becomes of requested tiles

The tiles of a combined request, and those that a session has requested before: they stay
requested, are sent from the cache, or are waited for. Which of them the Kit is asked to render
twice.
-/

namespace CoolOnline.Wsd

variable {σ : Type}

/-! ## What is to become of them -/

/-- The place and the parameters of a tile that a session has requested, in the view that the
session has now. -/
def placeIn (canonicalViewId : Int) (tile : TileDesc) : TileKey :=
  cacheKey { tile with canonicalViewId := canonicalViewId }

theorem placeIn_eq_cacheKey {view : Int} {t : TileDesc} (ht : t.canonicalViewId = view) :
    placeIn view t = cacheKey t := by
  subst ht
  rfl

/-- The session waits for the tile in this place to be rendered. -/
def TileCache.Subscribed (c : TileCache σ) (session : σ) (place : TileKey) : Prop :=
  ∃ t, c.tilesBeingRendered place = some t ∧ session ∈ t.subscribers

/-- One of the messages is that of the tile in this place, from a valid entry of the cache. -/
def SentFrom (c : TileCache σ) (messages : List Payload) (place : TileKey) : Prop :=
  ∃ tile cachedTile tracker, cacheKey tile = place ∧ c.lookupTile tile = some cachedTile ∧
    cachedTile.valid = true ∧ (sendTileNow tracker
      { tile with wireId := if tile.wireId = 0 then cachedTile.wids.getLastD 0 else tile.wireId }
      cachedTile).2 ∈ messages

theorem SentFrom.mono {c : TileCache σ} {messages messages' : List Payload} {place : TileKey}
    (h : SentFrom c messages place) (hsubset : messages ⊆ messages') :
    SentFrom c messages' place := by
  obtain ⟨tile, cachedTile, tracker, hkey, hlookup, hvalid, hmem⟩ := h
  exact ⟨tile, cachedTile, tracker, hkey, hlookup, hvalid, hsubset hmem⟩

/-- The tile of a combined request with the wire id and the version that it is requested under: the
client can force a keyframe to be sent, and one is rendered if the cache has no data or too much. -/
def askedTile (c : TileCache σ) (canForceKeyframe : Bool) (version : Int) (tile : TileDesc) :
    TileDesc :=
  { tile with
    ver := version
    oldWireId :=
      if (c.lookupTile tile).isNone || (c.lookupTile tile).any TileData.tooLarge then 0
      else if canForceKeyframe && tile.isForcedKeyFrame then 1
      else tile.oldWireId }

/-- The cache has no valid data of the tile, and its rendering has stalled, or is an older one that
only others wait for. -/
def TileCache.StaysOutdated (c : TileCache σ) (session : σ) (version now : Int)
    (tile : TileDesc) : Prop :=
  (c.lookupTile tile).filter TileData.valid = none ∧
    ∃ t, c.findTileBeingRendered tile = some t ∧
      (t.isStale now = true ∨ t.version < version ∧ session ∉ t.subscribers)

namespace TileBroker

/-- What has become of the tile in this place: it is still requested with these numbers, or has been
sent, or is waited for. -/
def Kept (c : TileCache σ) (before : TileSession) (b' : TileBroker σ) (session : σ)
    (place : TileKey) (version : Int) (oldWireId wireId : Nat) : Prop :=
  (∃ t ∈ (b'.sessions session).requestedTiles, cacheKey t = place ∧ t.ver = version ∧
      t.oldWireId = oldWireId ∧ t.wireId = wireId) ∨
    (∃ messages, (b'.sessions session).sent = before.sent ++ messages ∧
      SentFrom c messages place) ∨
    ∃ c', b'.tileCache = some c' ∧ c'.Subscribed session place

/-- No tile is requested twice, and none is lost: not those that were requested before, and not
those of the request, which come with newer numbers. -/
structure Conserves (b : TileBroker σ) (c : TileCache σ) (tileCombined : TileCombined)
    (canForceKeyframe : Bool) (session : σ) (b' : TileBroker σ) : Prop where
  distinct : ((b'.sessions session).requestedTiles.map
    (placeIn (b.sessions session).canonicalViewId)).Nodup
  requested : ∀ tile ∈ tileCombined.tiles,
    Kept c (b.sessions session) b' session (cacheKey tile) (nextVersion b.tileVersion)
      (askedTile c canForceKeyframe (nextVersion b.tileVersion) tile).oldWireId tile.wireId
  queued : ∀ tile ∈ (b.sessions session).requestedTiles,
    placeIn (b.sessions session).canonicalViewId tile ∉ tileCombined.tiles.map cacheKey →
    Kept c (b.sessions session) b' session (placeIn (b.sessions session).canonicalViewId tile)
      tile.ver tile.oldWireId tile.wireId

/-- The messages to the Kit are made of the tiles that were pushed for rendering, each of which is
in one of the messages and once in it, and the tiles of a message have the same parameters. -/
structure RendersOnce (pushed : List TileDesc) (messages : List KitRequest) : Prop where
  all : (messages.flatMap (·.tiles)).Perm pushed
  once : ∀ tile ∈ pushed,
    (messages.flatMap fun r => r.tiles.map cacheKey).count (cacheKey tile) = 1
  same : ∀ r ∈ messages, ∀ t ∈ r.tiles, ∀ t' ∈ r.tiles, combineParams t = combineParams t'
  sent : ∀ r ∈ messages, sendTileCombine r.tiles = some r

section

variable [DecidableEq σ] (b : TileBroker σ) (c : TileCache σ) (env : TileEnv)
  (tileCombined : TileCombined) (canForceKeyframe : Bool) (session : σ)

/-- What the loop over the tiles of a combined request does. -/
def combinedScan : CombinedScan σ :=
  tileCombined.tiles.foldl
    (CombinedScan.next env canForceKeyframe (nextVersion b.tileVersion) session)
    ⟨c, (b.sessions session).tracker, [], [], false⟩

/-- The broker when the tiles of the request have been accumulated. -/
def accumulated : TileBroker σ :=
  let scan := b.combinedScan c env tileCombined canForceKeyframe session
  { b.updateSession session
      { b.sessions session with
        tracker := scan.tracker
        requestedTiles := accumulateTiles (b.sessions session).canonicalViewId
          (b.sessions session).requestedTiles scan.tiles } with
    tileVersion := nextVersion b.tileVersion
    tileCache := some scan.tileCache }

/-- Where the loop over the requested tiles starts. -/
def startScan : RequestedScan σ :=
  ⟨b.tileVersion, false, c, (b.sessions session).removeOutdatedTilesOnFly env.now, [], true⟩

/-- What the loop over the requested tiles leaves, and what it has done. -/
def requestedScan : List TileDesc × RequestedScan σ :=
  requestedLoop env session (b.sessions session).requestedTiles (b.startScan c env session)

/-- The broker when the loop over the requested tiles has ended. -/
def afterRequest : TileBroker σ :=
  let b' := b.accumulated c env tileCombined canForceKeyframe session
  let (requestedTiles, scan) := b'.requestedScan
    (b.combinedScan c env tileCombined canForceKeyframe session).tileCache env session
  { b'.updateSession session { scan.session with requestedTiles := requestedTiles } with
    tileVersion := scan.tileVersion
    tileCache := some scan.tileCache }

/-- The tiles that are pushed for rendering by the two loops. -/
def pushedTiles : List TileDesc :=
  let scan := b.combinedScan c env tileCombined canForceKeyframe session
  scan.tilesNeedsRendering ++
    ((b.accumulated c env tileCombined canForceKeyframe session).requestedScan scan.tileCache env
      session).2.tilesNeedsRendering

/-- Each tile is conserved, and rendered once. -/
def ConservesTiles : Prop :=
  ∃ b' messages, b.handleTileCombinedRequest env tileCombined canForceKeyframe session =
      some (b', messages) ∧
    b.Conserves c tileCombined canForceKeyframe session b' ∧
    RendersOnce (b.pushedTiles c env tileCombined canForceKeyframe session) messages

/-- Each tile that the loop over the requested tiles takes is of this kind. -/
def EachTurn (kind : TileDesc → Prop) : List TileDesc → RequestedScan σ → Prop
  | [], _ => True
  | tile :: requestedTiles, s =>
      s.session.tilesOnFly.length < env.tilesOnFlyUpperLimit →
        kind tile ∧ EachTurn kind requestedTiles (s.next env session tile)

/-- No tile of the request whose rendering stays outdated is taken by the loop over the requested
tiles. -/
def TakesNoneOutdated : Prop :=
  let b' := b.accumulated c env tileCombined canForceKeyframe session
  let scan := b.combinedScan c env tileCombined canForceKeyframe session
  EachTurn env session
    (fun tile => cacheKey tile ∈ tileCombined.tiles.map cacheKey →
      ¬ c.StaysOutdated session (nextVersion b.tileVersion) env.now tile)
    (b'.sessions session).requestedTiles (b'.startScan scan.tileCache env session)

end

/-! ## The messages to the Kit -/

theorem addToGroup_flatten (tile : TileDesc) (groups : List (List TileDesc)) :
    (addToGroup tile groups).flatten.Perm (tile :: groups.flatten) := by
  induction groups with
  | nil => simp [addToGroup]
  | cons group groups ih =>
      rw [addToGroup]
      split
      · simp only [List.flatten_cons, List.append_assoc, List.singleton_append]
        exact List.perm_middle
      · rw [List.flatten_cons, List.flatten_cons]
        exact (ih.append_left group).trans List.perm_middle

/-- The groups are made of the tiles. -/
theorem groupsOf_flatten (tiles : List TileDesc) : (groupsOf tiles).flatten.Perm tiles := by
  have hfold : ∀ (rest : List TileDesc) (groups : List (List TileDesc)),
      (rest.foldl (fun groups tile => addToGroup tile groups) groups).flatten.Perm
        (rest ++ groups.flatten) := by
    intro rest
    induction rest with
    | nil => exact fun groups => List.Perm.refl _
    | cons tile rest ih =>
        intro groups
        refine (ih _).trans ?_
        exact ((addToGroup_flatten tile groups).append_left rest).trans List.perm_middle
  simpa [groupsOf] using hfold tiles []

theorem tiles_of_sendTileCombine {tiles : List TileDesc} {r : KitRequest}
    (h : sendTileCombine tiles = some r) : r.tiles = tiles := by
  obtain ⟨combined, -, rfl⟩ := Option.map_eq_some_iff.mp h
  rfl

theorem tiles_of_mapM {groups : List (List TileDesc)} {messages : List KitRequest}
    (h : groups.mapM sendTileCombine = some messages) :
    messages.map (·.tiles) = groups ∧ ∀ r ∈ messages, sendTileCombine r.tiles = some r := by
  induction groups generalizing messages with
  | nil =>
      obtain rfl : messages = [] := by simpa using h.symm
      simp
  | cons group groups ih =>
      simp only [List.mapM_cons, Option.bind_eq_bind, Option.bind_eq_some_iff, Option.pure_def,
        Option.some.injEq] at h
      obtain ⟨r, hr, rest, hrest, rfl⟩ := h
      obtain ⟨htiles, hsent⟩ := ih hrest
      have hgroup := tiles_of_sendTileCombine hr
      exact ⟨by rw [List.map_cons, htiles, hgroup],
        List.forall_mem_cons.mpr ⟨by rw [hgroup, hr], hsent⟩⟩

/-- The messages are made of the tiles to render, those of a message with the same parameters. -/
theorem sendGroups_tiles {tiles : List TileDesc} {allSamePartAndSize : Bool}
    {messages : List KitRequest} (h : sendGroups tiles allSamePartAndSize = some messages)
    (hsame : allSamePartAndSize = true →
      ∀ t ∈ tiles, ∀ t' ∈ tiles, combineParams t = combineParams t') :
    (messages.flatMap (·.tiles)).Perm tiles ∧
      ∀ r ∈ messages, (∀ t ∈ r.tiles, ∀ t' ∈ r.tiles, combineParams t = combineParams t') ∧
        sendTileCombine r.tiles = some r := by
  rw [sendGroups] at h
  split at h
  case isTrue hnone =>
    obtain rfl : messages = [] := by simpa using h.symm
    simp [hnone]
  case isFalse =>
    obtain ⟨hgroups, hsent⟩ := tiles_of_mapM h
    have hmem : ∀ r ∈ messages, r.tiles ∈ if allSamePartAndSize then [tiles] else groupsOf tiles :=
      fun r hr => hgroups ▸ List.mem_map_of_mem hr
    rw [List.flatMap_def, hgroups]
    cases allSamePartAndSize with
    | true =>
        refine ⟨by simp, fun r hr => ⟨?_, hsent r hr⟩⟩
        rw [List.mem_singleton.mp (hmem r hr)]
        exact hsame rfl
    | false =>
        exact ⟨groupsOf_flatten tiles, fun r hr =>
          ⟨(groupsOf_grouped tiles r.tiles (hmem r hr)).same, hsent r hr⟩⟩

end TileBroker

/-! ## Renderings in progress -/

namespace TileBeingRendered

/-- The rendering of a tile when the session has subscribed to it. -/
def joined [DecidableEq σ] (found : Option (TileBeingRendered σ)) (tile : TileDesc) (session : σ)
    (now : Int) : TileBeingRendered σ :=
  match found with
  | none => ⟨[session], now, tile⟩
  | some t =>
      if session ∈ t.subscribers then t.setVersion tile.ver
      else { t with subscribers := t.subscribers ++ [session] }

theorem mem_joined [DecidableEq σ] (found : Option (TileBeingRendered σ)) (tile : TileDesc)
    (session : σ) (now : Int) : session ∈ (joined found tile session now).subscribers := by
  cases found with
  | none => simp [joined]
  | some t =>
      rw [joined]
      split
      · assumption
      · simp

theorem subset_joined [DecidableEq σ] {t : TileBeingRendered σ} (tile : TileDesc) (session : σ)
    (now : Int) : t.subscribers ⊆ (joined (some t) tile session now).subscribers := by
  rw [joined]
  split
  · exact List.Subset.refl _
  · exact List.subset_append_left _ _

end TileBeingRendered

namespace TileCache

open TileBeingRendered

theorem needsRendering_eq (c : TileCache σ) (tile : TileDesc) (now : Int) :
    c.needsRendering tile now = match c.findTileBeingRendered tile with
      | none => true
      | some t => t.isStale now || decide (t.version < tile.ver) := by
  rw [needsRendering, hasTileBeingRendered, getTileBeingRenderedVersion]
  cases c.findTileBeingRendered tile with
  | none => rfl
  | some t => simp

theorem needsRendering_congr {c c' : TileCache σ} {tile tile' : TileDesc} (now : Int)
    (hver : tile.ver = tile'.ver)
    (hfind : c.findTileBeingRendered tile = c'.findTileBeingRendered tile') :
    c.needsRendering tile now = c'.needsRendering tile' now := by
  rw [needsRendering_eq, needsRendering_eq, hfind, hver]

variable [DecidableEq σ]

/-- A tile that has its version already, and is a forced keyframe where it has to be, is requested
as it is. -/
theorem requestTileRendering_fixed (c : TileCache σ) {tile : TileDesc} {forceKeyframe : Bool}
    (hforce : forceKeyframe = true → tile.oldWireId = 0) {version : Int} (hver : tile.ver = version)
    (now : Int) (tiles : List TileDesc) (session : σ) :
    c.requestTileRendering tile forceKeyframe version now tiles session =
      { tileCache := (c.subscribeToTileRendering tile session now).1
        tile := tile
        tilesNeedsRendering := if c.needsRendering tile now then tiles ++ [tile] else tiles
        allSamePartAndSize := !c.needsRendering tile now ||
          tiles.getLast?.all fun last => tile.sameTileCombineParams last } := by
  have hold : (if forceKeyframe = true then 0 else tile.oldWireId) = tile.oldWireId := by
    split
    case isTrue h => exact (hforce h).symm
    case isFalse => rfl
  subst hver
  simp only [requestTileRendering, hold, ite_self]

theorem subscribeToTileRendering_tilesBeingRendered (c : TileCache σ) (tile : TileDesc)
    (session : σ) (now : Int) :
    (c.subscribeToTileRendering tile session now).1.tilesBeingRendered =
      Function.update c.tilesBeingRendered (cacheKey tile)
        (some (joined (c.findTileBeingRendered tile) tile session now)) := by
  simp only [subscribeToTileRendering, joined]
  cases c.findTileBeingRendered tile with
  | none => rfl
  | some t => by_cases hmem : session ∈ t.subscribers <;> simp [hmem]

/-- Those that wait for a tile still do when a session subscribes. -/
theorem Subscribed.subscribe {c : TileCache σ} {session : σ} {place : TileKey}
    (h : c.Subscribed session place) (tile : TileDesc) (session' : σ) (now : Int) :
    (c.subscribeToTileRendering tile session' now).1.Subscribed session place := by
  obtain ⟨t, ht, hmem⟩ := h
  rw [Subscribed, subscribeToTileRendering_tilesBeingRendered]
  by_cases hplace : place = cacheKey tile
  · subst hplace
    refine ⟨_, Function.update_self .., ?_⟩
    rw [findTileBeingRendered, ht]
    exact subset_joined tile session' now hmem
  · exact ⟨t, by rw [Function.update_of_ne hplace, ht], hmem⟩

theorem subscribed_subscribe (c : TileCache σ) (tile : TileDesc) (session : σ) (now : Int) :
    (c.subscribeToTileRendering tile session now).1.Subscribed session (cacheKey tile) := by
  rw [Subscribed, subscribeToTileRendering_tilesBeingRendered]
  exact ⟨_, Function.update_self .., mem_joined _ _ _ _⟩

/-- A tile that a session has subscribed to is to be rendered again just if its rendering stays
outdated: the start of a stalled one, and the version of one that others wait for, are not renewed.
-/
theorem needsRendering_joined_iff {c c' : TileCache σ} {tile tile' t : TileDesc} {session : σ}
    {version now : Int} (htile' : tile'.ver = version) (ht : t.ver = version)
    (hjoined : c'.findTileBeingRendered t =
      some (joined (c.findTileBeingRendered tile) tile' session now)) :
    c'.needsRendering t now = true ↔ ∃ t, c.findTileBeingRendered tile = some t ∧
      (t.isStale now = true ∨ t.version < version ∧ session ∉ t.subscribers) := by
  rw [needsRendering_eq, hjoined]
  cases hfind : c.findTileBeingRendered tile with
  | none => simp [joined, isStale, commandTimeoutMs, TileBeingRendered.version, htile', ht]
  | some found =>
      by_cases hmem : session ∈ found.subscribers
      · simp [joined, hmem, isStale, setVersion, TileBeingRendered.version, htile', ht]
      · simp [joined, hmem, isStale, TileBeingRendered.version, ht]

end TileCache

/-! ## The tiles of a request -/

namespace TileBroker

open TileBeingRendered

variable [DecidableEq σ]

/-- Whether the loop over the tiles of a request pushes this one. -/
def isPushed (c : TileCache σ) (version now : Int) (tile : TileDesc) : Bool :=
  ((c.lookupTile tile).isNone || (c.lookupTile tile).any TileData.tooLarge ||
      !(c.lookupTile tile).any TileData.valid) &&
    c.needsRendering { tile with ver := version } now

/-- What the loop over the tiles of a request does in its turns for these tiles, of which nothing
has been done before. -/
structure CombinedScan.Turns (c : TileCache σ) (canForceKeyframe : Bool) (version now : Int)
    (session : σ) (s s' : CombinedScan σ) (tiles : List TileDesc) : Prop where
  asked : s'.tiles = s.tiles ++ tiles.map (askedTile c canForceKeyframe version)
  pushed : s'.tilesNeedsRendering.map cacheKey = s.tilesNeedsRendering.map cacheKey ++
    (tiles.filter (isPushed c version now)).map cacheKey
  sameData : SameData c s'.tileCache
  frame : ∀ place ∉ tiles.map cacheKey,
    s'.tileCache.tilesBeingRendered place = s.tileCache.tilesBeingRendered place
  joined : ∀ tile ∈ tiles, isPushed c version now tile = true → ∃ tile', tile'.ver = version ∧
    s'.tileCache.tilesBeingRendered (cacheKey tile) =
      some (joined (c.findTileBeingRendered tile) tile' session now)

theorem CombinedScan.turn_next {c : TileCache σ} {s : CombinedScan σ}
    (hdata : SameData c s.tileCache)
    {tile : TileDesc}
    (hfind : s.tileCache.findTileBeingRendered tile = c.findTileBeingRendered tile)
    (env : TileEnv) (canForceKeyframe : Bool) (version : Int) (session : σ) :
    s.Turns c canForceKeyframe version env.now session
      (s.next env canForceKeyframe version session tile) [tile] := by
  have hlookup (n : Nat) : s.tileCache.lookupTile { tile with ver := version, oldWireId := n } =
      c.lookupTile tile := hdata _
  have hneeds (n : Nat) :
      s.tileCache.needsRendering { tile with ver := version, oldWireId := n } env.now =
        c.needsRendering { tile with ver := version } env.now :=
    TileCache.needsRendering_congr env.now rfl hfind
  rw [CombinedScan.next]
  dsimp only
  rw [hlookup]
  generalize hforced : (canForceKeyframe && tile.isForcedKeyFrame) = forced
  generalize hkeyframe :
    ((c.lookupTile tile).isNone || (c.lookupTile tile).any TileData.tooLarge) = keyframe
  have hasked : askedTile c canForceKeyframe version tile =
      { tile with
        ver := version
        oldWireId := if keyframe then 0 else if forced then 1 else tile.oldWireId } := by
    rw [askedTile, hforced, hkeyframe]
  have hpushed : isPushed c version env.now tile =
      ((keyframe || !(c.lookupTile tile).any TileData.valid) &&
        c.needsRendering { tile with ver := version } env.now) := by
    rw [isPushed, hkeyframe]
  split
  case isTrue hasks =>
    rw [hasks, Bool.true_and] at hpushed
    rw [TileCache.requestTileRendering_fixed _ (by intro h; rw [if_pos h]) rfl, hneeds]
    refine ⟨by rw [List.map_singleton, hasked], ?_, ?_, ?_, List.forall_mem_singleton.mpr ?_⟩
    · dsimp only
      rw [List.filter_singleton, hpushed]
      cases c.needsRendering { tile with ver := version } env.now with
      | true => simp [cacheKey]
      | false => simp
    · exact fun desc =>
        (TileCache.subscribeToTileRendering_lookupTile _ _ _ _ desc).trans (hdata desc)
    · intro place hplace
      dsimp only
      rw [TileCache.subscribeToTileRendering_tilesBeingRendered]
      exact Function.update_of_ne (fun heq => hplace (List.mem_singleton.mpr heq)) _ _
    · intro _
      refine ⟨askedTile c canForceKeyframe version tile, rfl, ?_⟩
      dsimp only
      rw [TileCache.subscribeToTileRendering_tilesBeingRendered, hasked, ← hfind]
      exact Function.update_self ..
  case isFalse hasks =>
    have hvalid : keyframe = false ∧ (c.lookupTile tile).any TileData.valid = true := by
      simpa using hasks
    rw [hvalid.1, hvalid.2] at hpushed
    refine ⟨?_, ?_, hdata, fun _ _ => rfl, List.forall_mem_singleton.mpr fun h => ?_⟩
    · rw [List.map_singleton, hasked, hvalid.1]
      rfl
    · simp [hpushed]
    · rw [hpushed] at h
      cases h

theorem CombinedScan.Turns.nil {c : TileCache σ} {s : CombinedScan σ}
    (hdata : SameData c s.tileCache) (canForceKeyframe : Bool) (version now : Int)
    (session : σ) : s.Turns c canForceKeyframe version now session s [] :=
  ⟨by simp, by simp, hdata, fun _ _ => rfl, by simp⟩

/-- Turns for some tiles, and then for others. -/
theorem CombinedScan.Turns.append {c : TileCache σ} {canForceKeyframe : Bool} {version now : Int}
    {session : σ} {s s' s'' : CombinedScan σ} {tiles tiles' : List TileDesc}
    (h : s.Turns c canForceKeyframe version now session s' tiles)
    (h' : s'.Turns c canForceKeyframe version now session s'' tiles')
    (hdisjoint : List.Disjoint (tiles.map cacheKey) (tiles'.map cacheKey)) :
    s.Turns c canForceKeyframe version now session s'' (tiles ++ tiles') := by
  refine ⟨?_, ?_, h'.sameData, ?_, List.forall_mem_append.mpr ⟨?_, h'.joined⟩⟩
  · rw [h'.asked, h.asked, List.map_append, List.append_assoc]
  · rw [h'.pushed, h.pushed, List.filter_append, List.map_append, List.append_assoc]
  · intro place hplace
    rw [List.map_append, List.mem_append, not_or] at hplace
    rw [h'.frame place hplace.2, h.frame place hplace.1]
  · intro tile htile hpushed
    obtain ⟨tile', hver, hjoined⟩ := h.joined tile htile hpushed
    exact ⟨tile', hver, (h'.frame _ (hdisjoint (List.mem_map_of_mem htile))).trans hjoined⟩

theorem not_mem_keys_singleton {tile other : TileDesc} {tiles : List TileDesc}
    (htile : cacheKey tile ∉ tiles.map cacheKey) (hother : other ∈ tiles) :
    cacheKey other ∉ [tile].map cacheKey := by
  intro hmem
  exact htile (List.mem_singleton.mp hmem ▸ List.mem_map_of_mem hother)

/-- The loop over the tiles of a request, none of them there twice. -/
theorem CombinedScan.turns_foldl {c : TileCache σ} {s : CombinedScan σ} {tiles : List TileDesc}
    (hdata : SameData c s.tileCache) (hdistinct : (tiles.map cacheKey).Nodup)
    (hfind : ∀ tile ∈ tiles, s.tileCache.findTileBeingRendered tile = c.findTileBeingRendered tile)
    (env : TileEnv) (canForceKeyframe : Bool) (version : Int) (session : σ) :
    s.Turns c canForceKeyframe version env.now session
      (tiles.foldl (CombinedScan.next env canForceKeyframe version session) s) tiles := by
  induction tiles generalizing s with
  | nil => exact .nil hdata canForceKeyframe version env.now session
  | cons tile tiles ih =>
      obtain ⟨htile, hdistinct⟩ := List.nodup_cons.mp hdistinct
      have hturn := CombinedScan.turn_next hdata (hfind tile (by simp)) env canForceKeyframe
        version session
      have hrest := ih hturn.sameData hdistinct fun other hother => by
        exact (hturn.frame _ (not_mem_keys_singleton htile hother)).trans (hfind other (by simp [hother]))
      refine hturn.append hrest ?_
      intro place hplace hother
      exact htile (List.mem_singleton.mp hplace ▸ hother)

/-! ## The tiles of a session that are requested -/

/-- Whether the loop over the requested tiles pushes this one, which it takes. -/
def isPushedAgain (c : TileCache σ) (now : Int) (tile : TileDesc) : Bool :=
  ((c.lookupTile tile).filter TileData.valid).isNone && c.needsRendering tile now

/-- What the loop over the requested tiles does in its turns for these tiles, of which nothing has
been done since the cache was this one. -/
structure RequestedScan.Turns (c : TileCache σ) (now : Int) (session : σ) (s s' : RequestedScan σ)
    (tiles : List TileDesc) : Prop where
  pushed : s'.tilesNeedsRendering.map cacheKey = s.tilesNeedsRendering.map cacheKey ++
    (tiles.filter (isPushedAgain c now)).map cacheKey
  sameData : SameData c s'.tileCache
  frame : ∀ place ∉ tiles.map cacheKey,
    s'.tileCache.tilesBeingRendered place = s.tileCache.tilesBeingRendered place
  subscribed : ∀ place, s.tileCache.Subscribed session place →
    s'.tileCache.Subscribed session place
  sent : ∃ messages, s'.session.sent = s.session.sent ++ messages ∧
    ∀ tile ∈ tiles, SentFrom c messages (cacheKey tile) ∨
      s'.tileCache.Subscribed session (cacheKey tile)

theorem RequestedScan.turns_next {c : TileCache σ} {s : RequestedScan σ}
    (hdata : SameData c s.tileCache) {tile : TileDesc}
    (hfind : s.tileCache.findTileBeingRendered tile = c.findTileBeingRendered tile)
    (env : TileEnv) (session : σ) :
    s.Turns c env.now session (s.next env session tile) [tile] := by
  rw [RequestedScan.next, hdata tile]
  cases hcached : (c.lookupTile tile).filter TileData.valid with
  | some cachedTile =>
      obtain ⟨hlookup, hvalid⟩ := Option.filter_eq_some_iff.mp hcached
      have hnot : isPushedAgain c env.now tile = false := by simp [isPushedAgain, hcached]
      refine ⟨by simp [hnot], hdata, fun _ _ => rfl, fun _ h => h, _, rfl,
        List.forall_mem_singleton.mpr (.inl ?_)⟩
      exact ⟨tile, cachedTile, s.session.tracker, rfl, hlookup, hvalid, List.mem_singleton.mpr rfl⟩
  | none =>
      generalize (if s.bumpedVersion = true then s.tileVersion
        else nextVersion s.tileVersion) = version
      have hneeds : s.tileCache.needsRendering tile env.now = c.needsRendering tile env.now :=
        TileCache.needsRendering_congr env.now rfl hfind
      have hpushed : isPushedAgain c env.now tile = c.needsRendering tile env.now := by
        rw [isPushedAgain, hcached]
        rfl
      dsimp only
      have hcache : (s.tileCache.requestTileRendering tile (c.lookupTile tile).isNone version
          env.now s.tilesNeedsRendering session).tileCache = (s.tileCache.subscribeToTileRendering
            (s.tileCache.requestTileRendering tile (c.lookupTile tile).isNone version
              env.now s.tilesNeedsRendering session).tile session env.now).1 := rfl
      have hkey : cacheKey (s.tileCache.requestTileRendering tile (c.lookupTile tile).isNone version
          env.now s.tilesNeedsRendering session).tile = cacheKey tile := by
        simp only [TileCache.requestTileRendering]
        split <;> rfl
      refine ⟨?_, ?_, ?_, ?_, [], (List.append_nil _).symm,
        List.forall_mem_singleton.mpr (.inr ?_)⟩
      · rw [List.filter_singleton, hpushed, ← hneeds]
        simp only [TileCache.requestTileRendering]
        cases s.tileCache.needsRendering tile env.now with
        | true => simp [cacheKey]
        | false => simp
      · rw [hcache]
        exact fun desc =>
          (TileCache.subscribeToTileRendering_lookupTile _ _ _ _ desc).trans (hdata desc)
      · intro place hplace
        rw [hcache, TileCache.subscribeToTileRendering_tilesBeingRendered, hkey]
        exact Function.update_of_ne (fun heq => hplace (List.mem_singleton.mpr heq)) _ _
      · intro place h
        rw [hcache]
        exact h.subscribe _ session env.now
      · rw [hcache, ← hkey]
        exact TileCache.subscribed_subscribe _ _ session env.now

omit [DecidableEq σ] in
theorem RequestedScan.Turns.nil {c : TileCache σ} {s : RequestedScan σ}
    (hdata : SameData c s.tileCache) (now : Int) (session : σ) : s.Turns c now session s [] :=
  ⟨by simp, hdata, fun _ _ => rfl, fun _ h => h, [], by simp, by simp⟩

omit [DecidableEq σ] in
theorem RequestedScan.Turns.append {c : TileCache σ} {now : Int} {session : σ}
    {s s' s'' : RequestedScan σ} {tiles tiles' : List TileDesc}
    (h : s.Turns c now session s' tiles) (h' : s'.Turns c now session s'' tiles') :
    s.Turns c now session s'' (tiles ++ tiles') := by
  obtain ⟨messages, hsent, hhandled⟩ := h.sent
  obtain ⟨messages', hsent', hhandled'⟩ := h'.sent
  refine ⟨?_, h'.sameData, ?_, fun place hplace => h'.subscribed place (h.subscribed place hplace),
    messages ++ messages', by rw [hsent', hsent, List.append_assoc],
    List.forall_mem_append.mpr ⟨?_, ?_⟩⟩
  · rw [h'.pushed, h.pushed, List.filter_append, List.map_append, List.append_assoc]
  · intro place hplace
    rw [List.map_append, List.mem_append, not_or] at hplace
    rw [h'.frame place hplace.2, h.frame place hplace.1]
  · intro tile htile
    exact (hhandled tile htile).imp (fun h => h.mono (List.subset_append_left _ _))
      (h'.subscribed _)
  · intro tile htile
    exact (hhandled' tile htile).imp_left fun h => h.mono (List.subset_append_right _ _)

/-- The loop over the requested tiles takes some of them and leaves the others. -/
theorem turns_requestedLoop {c : TileCache σ} {s : RequestedScan σ} {tiles : List TileDesc}
    (hdata : SameData c s.tileCache) (hdistinct : (tiles.map cacheKey).Nodup)
    (hfind : ∀ tile ∈ tiles, s.tileCache.findTileBeingRendered tile = c.findTileBeingRendered tile)
    (env : TileEnv) (session : σ) :
    ∃ taken, tiles = taken ++ (requestedLoop env session tiles s).1 ∧
      s.Turns c env.now session (requestedLoop env session tiles s).2 taken ∧
      ∀ kind : TileDesc → Prop, EachTurn env session kind tiles s ↔ ∀ tile ∈ taken, kind tile := by
  induction tiles generalizing s with
  | nil => exact ⟨[], rfl, .nil hdata env.now session, fun kind => by simp [EachTurn]⟩
  | cons tile tiles ih =>
      obtain ⟨htile, hdistinct⟩ := List.nodup_cons.mp hdistinct
      rw [requestedLoop]
      split
      case isTrue hroom =>
        have hturn := RequestedScan.turns_next hdata (hfind tile (by simp)) env session
        obtain ⟨taken, htaken, hturns, hkind⟩ := ih hturn.sameData hdistinct fun other hother => by
          exact (hturn.frame _ (not_mem_keys_singleton htile hother)).trans (hfind other (by simp [hother]))
        refine ⟨tile :: taken, by rw [List.cons_append, ← htaken], hturn.append hturns, ?_⟩
        intro kind
        rw [EachTurn, List.forall_mem_cons, hkind]
        exact ⟨fun h => h hroom, fun h _ => h⟩
      case isFalse hroom =>
        refine ⟨[], rfl, .nil hdata env.now session, fun kind => ?_⟩
        simp [EachTurn, hroom]

/-! ## Accumulating tiles -/

omit [DecidableEq σ]

theorem cacheKey_eq_iff {t t' : TileDesc} : cacheKey t = cacheKey t' ↔
    t.tilePosX = t'.tilePosX ∧ t.tilePosY = t'.tilePosY ∧ t.sameTileCombineParams t' = true := by
  simp only [cacheKey, TileKey.mk.injEq, TileDesc.sameTileCombineParams, Bool.and_eq_true,
    beq_iff_eq]
  constructor <;> intro h <;> simp [h]

/-- What a tile that is requested anew takes over. -/
def Renews (newTile t : TileDesc) : Prop :=
  cacheKey t = cacheKey newTile ∧ t.ver = newTile.ver ∧ t.oldWireId = newTile.oldWireId ∧
    t.wireId = newTile.wireId

/-- The requested tiles when these have been added, none of them twice. -/
structure Accumulated (requestedTiles tiles result : List TileDesc) : Prop where
  distinct : (result.map cacheKey).Nodup
  renewed : ∀ tile ∈ tiles, ∃ t ∈ result, Renews tile t
  kept : ∀ t ∈ requestedTiles, cacheKey t ∉ tiles.map cacheKey → t ∈ result
  only : result.map cacheKey ⊆ (requestedTiles ++ tiles).map cacheKey

theorem accumulated_addRequested {requestedTiles : List TileDesc}
    (h : (requestedTiles.map cacheKey).Nodup) (newTile : TileDesc) :
    Accumulated requestedTiles [newTile] (addRequested requestedTiles newTile) := by
  induction requestedTiles with
  | nil => constructor <;> simp [addRequested, Renews]
  | cons oldTile rest ih =>
      obtain ⟨hold, hrest⟩ := List.nodup_cons.mp h
      obtain ⟨hdistinct, hrenewed, hkept, honly⟩ := ih hrest
      rw [addRequested]
      split
      case isTrue hmatch =>
        have hkey := cacheKey_eq_iff.mpr hmatch
        have honly : (oldTile :: rest).map cacheKey ⊆ (oldTile :: rest ++ [newTile]).map cacheKey :=
          List.map_subset cacheKey (List.subset_append_left _ _)
        refine ⟨h, ?_, ?_, honly⟩
        · exact List.forall_mem_singleton.mpr ⟨_, List.mem_cons_self .., hkey, rfl, rfl, rfl⟩
        · intro t ht hne
          rcases List.mem_cons.mp ht with rfl | ht
          · exact absurd (List.mem_singleton.mpr hkey) hne
          · exact List.mem_cons_of_mem _ ht
      case isFalse hmatch =>
        have hkey := mt cacheKey_eq_iff.mp hmatch
        refine ⟨?_, ?_, ?_, ?_⟩
        · refine List.nodup_cons.mpr ⟨fun hmem => ?_, hdistinct⟩
          replace hmem := honly hmem
          rw [List.map_append, List.mem_append] at hmem
          rcases hmem with hmem | hmem
          · exact hold hmem
          · exact hkey (List.mem_singleton.mp hmem)
        · intro tile htile
          obtain ⟨t, ht, hrenews⟩ := hrenewed tile htile
          exact ⟨t, List.mem_cons_of_mem _ ht, hrenews⟩
        · intro t ht hne
          rcases List.mem_cons.mp ht with rfl | ht
          · exact List.mem_cons_self ..
          · exact List.mem_cons_of_mem _ (hkept t ht hne)
        · rw [List.cons_append, List.map_cons, List.map_cons]
          exact List.cons_subset_cons _ honly

theorem Accumulated.append {requestedTiles tiles tiles' result result' : List TileDesc}
    (h : Accumulated requestedTiles tiles result) (h' : Accumulated result tiles' result')
    (hdisjoint : List.Disjoint (tiles.map cacheKey) (tiles'.map cacheKey)) :
    Accumulated requestedTiles (tiles ++ tiles') result' := by
  refine ⟨h'.distinct, List.forall_mem_append.mpr ⟨?_, h'.renewed⟩, ?_, ?_⟩
  · intro tile htile
    obtain ⟨t, ht, hrenews⟩ := h.renewed tile htile
    exact ⟨t, h'.kept t ht (hrenews.1 ▸ hdisjoint (List.mem_map_of_mem htile)), hrenews⟩
  · intro t ht hne
    rw [List.map_append, List.mem_append, not_or] at hne
    exact h'.kept t (h.kept t ht hne.1) hne.2
  · have hbefore := h.only
    have hafter := h'.only
    simp only [List.map_append] at hbefore hafter ⊢
    rw [← List.append_assoc]
    have hold := List.Subset.trans hbefore (List.subset_append_left _ (tiles'.map cacheKey))
    exact List.Subset.trans hafter
      (List.append_subset.mpr ⟨hold, List.subset_append_right _ _⟩)

theorem accumulated_foldl {requestedTiles tiles : List TileDesc}
    (h : (requestedTiles.map cacheKey).Nodup) (hdistinct : (tiles.map cacheKey).Nodup) :
    Accumulated requestedTiles tiles (tiles.foldl addRequested requestedTiles) := by
  induction tiles generalizing requestedTiles with
  | nil => exact ⟨h, by simp, fun t ht _ => ht, by simp⟩
  | cons tile tiles ih =>
      obtain ⟨htile, hdistinct⟩ := List.nodup_cons.mp hdistinct
      have hadd := accumulated_addRequested h tile
      refine hadd.append (ih hadd.distinct hdistinct) ?_
      intro place hplace hother
      exact htile (List.mem_singleton.mp hplace ▸ hother)

/-- The tiles that a session has requested, in its view, with those of a request. -/
theorem accumulated_accumulateTiles {canonicalViewId : Int} {requestedTiles tiles : List TileDesc}
    (h : (requestedTiles.map (placeIn canonicalViewId)).Nodup)
    (hdistinct : (tiles.map cacheKey).Nodup) :
    Accumulated
      (requestedTiles.map fun tile => { tile with canonicalViewId := canonicalViewId }) tiles
      (accumulateTiles canonicalViewId requestedTiles tiles) := by
  have h' : ((requestedTiles.map fun tile =>
      { tile with canonicalViewId := canonicalViewId }).map cacheKey).Nodup := by
    rw [List.map_map]
    exact h
  rw [accumulateTiles]
  split
  case isTrue hnone =>
    subst hnone
    exact ⟨hdistinct, fun tile ht => ⟨tile, ht, rfl, rfl, rfl, rfl⟩, by simp, by simp⟩
  case isFalse => exact accumulated_foldl h' hdistinct

/-! ## The request as a whole -/

section

variable [DecidableEq σ] {b : TileBroker σ} {c : TileCache σ} {tileCombined : TileCombined}
  {session : σ}

/-- What a combined request comes to, by its two loops. -/
theorem handleTileCombinedRequest_eq (hb : b.SessionsTyped) (hcache : b.tileCache = some c)
    {params : List Int} (htiles : ∀ t ∈ tileCombined.tiles, Typed t ∧ combineParams t = params)
    (env : TileEnv) (canForceKeyframe : Bool) (session : σ) :
    ∃ rendered requested,
      b.handleTileCombinedRequest env tileCombined canForceKeyframe session =
        some (b.afterRequest c env tileCombined canForceKeyframe session, rendered ++ requested) ∧
      (rendered.flatMap (·.tiles)).Perm
        (b.combinedScan c env tileCombined canForceKeyframe session).tilesNeedsRendering ∧
      (requested.flatMap (·.tiles)).Perm
        ((b.accumulated c env tileCombined canForceKeyframe session).requestedScan
          (b.combinedScan c env tileCombined canForceKeyframe session).tileCache env
            session).2.tilesNeedsRendering ∧
      ∀ r ∈ rendered ++ requested,
        (∀ t ∈ r.tiles, ∀ t' ∈ r.tiles, combineParams t = combineParams t') ∧
          sendTileCombine r.tiles = some r := by
  have hstart :
      (⟨c, (b.sessions session).tracker, [], [], false⟩ : CombinedScan σ).Keeps c params :=
    ⟨fun _ => rfl, List.forall_mem_nil _, List.forall_mem_nil _⟩
  have hkeeps : (b.combinedScan c env tileCombined canForceKeyframe session).Keeps c params :=
    foldl_next_keeps hstart htiles (isInt32_toInt32 _) env canForceKeyframe session
  have htyped : (b.accumulated c env tileCombined canForceKeyframe session).SessionsTyped := by
    obtain ⟨hview, hint, hrequested⟩ := hb session
    exact hb.update session rfl (accumulateTiles_typed ⟨hview, hint⟩ hrequested hkeeps.tiles)
  have hrequested := (requestedLoop_keeps env session (htyped session).2.2
    (scanStart_keeps (b.accumulated c env tileCombined canForceKeyframe session).tileVersion
      hkeeps.sameData (((b.accumulated c env tileCombined canForceKeyframe session).sessions
        session).removeOutdatedTilesOnFly env.now))).1
  have hsame : true = true → _ := (Rendering.of_params hkeeps.renderable).same
  obtain ⟨rendered, hrendered, -⟩ := sendGroups_agrees true
    (fun t ht => (hkeeps.renderable t ht).1) hsame
  obtain ⟨requested, hsent, -⟩ := sendGroups_agrees _ hrequested.rendering.renderable
    hrequested.rendering.same
  obtain ⟨hperm, hmessages⟩ := sendGroups_tiles hrendered hsame
  obtain ⟨hperm', hmessages'⟩ := sendGroups_tiles hsent hrequested.rendering.same
  refine ⟨rendered, requested, ?_, hperm, hperm', List.forall_mem_append.mpr
    ⟨hmessages, hmessages'⟩⟩
  have hfirst : b.handleTileCombinedRequest env tileCombined canForceKeyframe session =
      (sendGroups (b.combinedScan c env tileCombined canForceKeyframe session).tilesNeedsRendering
        true).bind fun rendered =>
          ((b.accumulated c env tileCombined canForceKeyframe session).sendRequestedTiles env
            session).map fun (b, requested) => (b, rendered ++ requested) := by
    simp only [handleTileCombinedRequest, hcache]
    rfl
  have hsecond : (b.accumulated c env tileCombined canForceKeyframe session).sendRequestedTiles env
      session = some (b.afterRequest c env tileCombined canForceKeyframe session, requested) :=
    congrArg (Option.map fun messages =>
      (b.afterRequest c env tileCombined canForceKeyframe session, messages)) hsent
  rw [hfirst, hrendered, Option.bind_some, hsecond]
  rfl

/-- What the callers of `handleTileCombinedRequest` see to: the fields are of their types, the tiles
of the request fit its parameters, are in the view of the session, and none is there twice, and
neither is one of those that the session has requested before. -/
structure Requestable (b : TileBroker σ) (c : TileCache σ) (tileCombined : TileCombined)
    (session : σ) : Prop where
  typed : b.SessionsTyped
  cache : b.tileCache = some c
  uniform : tileCombined.Uniform
  view : tileCombined.canonicalViewId = (b.sessions session).canonicalViewId
  distinct : (tileCombined.tiles.map cacheKey).Nodup
  queued : ((b.sessions session).requestedTiles.map
    (placeIn (b.sessions session).canonicalViewId)).Nodup

variable (h : b.Requestable c tileCombined session) (env : TileEnv) (canForceKeyframe : Bool)

include h

theorem combinedScan_turns :
    CombinedScan.Turns c canForceKeyframe (nextVersion b.tileVersion) env.now session
      ⟨c, (b.sessions session).tracker, [], [], false⟩
      (b.combinedScan c env tileCombined canForceKeyframe session) tileCombined.tiles :=
  CombinedScan.turns_foldl (s := ⟨c, (b.sessions session).tracker, [], [], false⟩) (fun _ => rfl)
    h.distinct (fun _ _ => rfl) env canForceKeyframe (nextVersion b.tileVersion) session

theorem accumulated_requestedTiles :
    Accumulated ((b.sessions session).requestedTiles.map fun tile =>
        { tile with canonicalViewId := (b.sessions session).canonicalViewId })
      (tileCombined.tiles.map (askedTile c canForceKeyframe (nextVersion b.tileVersion)))
      ((b.accumulated c env tileCombined canForceKeyframe session).sessions
        session).requestedTiles := by
  have hasked := (combinedScan_turns h env canForceKeyframe).asked
  have hkeys : ((tileCombined.tiles.map
      (askedTile c canForceKeyframe (nextVersion b.tileVersion))).map cacheKey).Nodup := by
    rw [List.map_map]
    exact h.distinct
  have haccumulated := accumulated_accumulateTiles h.queued hkeys
  rw [List.nil_append] at hasked
  rw [← hasked] at haccumulated ⊢
  simpa [accumulated, updateSession] using haccumulated

/-- What the loop over the requested tiles does in a request: some are taken, the others left. -/
theorem requestedScan_turns :
    ∃ taken, ((b.accumulated c env tileCombined canForceKeyframe session).sessions
        session).requestedTiles = taken ++ ((b.afterRequest c env tileCombined canForceKeyframe
          session).sessions session).requestedTiles ∧
      ((b.accumulated c env tileCombined canForceKeyframe session).startScan
        (b.combinedScan c env tileCombined canForceKeyframe session).tileCache env session).Turns
          (b.combinedScan c env tileCombined canForceKeyframe session).tileCache env.now session
          ((b.accumulated c env tileCombined canForceKeyframe session).requestedScan
            (b.combinedScan c env tileCombined canForceKeyframe session).tileCache env session).2
          taken ∧
      (b.TakesNoneOutdated c env tileCombined canForceKeyframe session ↔ ∀ tile ∈ taken,
        cacheKey tile ∈ tileCombined.tiles.map cacheKey →
          ¬ c.StaysOutdated session (nextVersion b.tileVersion) env.now tile) := by
  have haccumulated := accumulated_requestedTiles h env canForceKeyframe
  obtain ⟨taken, htaken, hturns, hkind⟩ := turns_requestedLoop
    (s := (b.accumulated c env tileCombined canForceKeyframe session).startScan
      (b.combinedScan c env tileCombined canForceKeyframe session).tileCache env session)
    (fun _ => rfl) haccumulated.distinct (fun _ _ => rfl) env session
  refine ⟨taken, ?_, hturns, hkind _⟩
  rw [htaken]
  simp [afterRequest, requestedScan, updateSession]

/-- The requested tiles are all in the view of the session. -/
theorem canonicalViewId_of_accumulated {t : TileDesc}
    (ht : t ∈ ((b.accumulated c env tileCombined canForceKeyframe session).sessions
      session).requestedTiles) :
    t.canonicalViewId = (b.sessions session).canonicalViewId := by
  have hmem := (accumulated_requestedTiles h env canForceKeyframe).only (List.mem_map_of_mem ht)
  obtain ⟨t', ht', hkey⟩ := List.mem_map.mp hmem
  have hview : t'.canonicalViewId = t.canonicalViewId := congrArg TileKey.canonicalViewId hkey
  rw [← hview]
  rcases List.mem_append.mp ht' with ht' | ht'
  · obtain ⟨tile, -, rfl⟩ := List.mem_map.mp ht'
    rfl
  · obtain ⟨tile, htile, rfl⟩ := List.mem_map.mp ht'
    have hparams := (typed_of_uniform h.uniform tile htile).2
    simp only [combineParams, List.cons.injEq] at hparams
    exact hparams.2.2.2.2.2.2.1.trans h.view

/-- A tile that is among the requested ones after the request's have been added stays there, or is
dealt with by the loop. -/
theorem kept_of_accumulated {t : TileDesc}
    (ht : t ∈ ((b.accumulated c env tileCombined canForceKeyframe session).sessions
      session).requestedTiles) :
    Kept c (b.sessions session) (b.afterRequest c env tileCombined canForceKeyframe session) session
      (cacheKey t) t.ver t.oldWireId t.wireId := by
  have hdata := (combinedScan_turns h env canForceKeyframe).sameData
  obtain ⟨taken, htaken, hturns, -⟩ := requestedScan_turns h env canForceKeyframe
  rw [htaken] at ht
  rcases List.mem_append.mp ht with ht | ht
  · obtain ⟨messages, hsent, hhandled⟩ := hturns.sent
    right
    rcases hhandled t ht with hfrom | hsubscribed
    · left
      refine ⟨messages, ?_, ?_⟩
      · simpa [afterRequest, accumulated, updateSession, startScan,
          TileSession.removeOutdatedTilesOnFly] using hsent
      · obtain ⟨tile, cachedTile, tracker, hkey, hlookup, hvalid, hmem⟩ := hfrom
        exact ⟨tile, cachedTile, tracker, hkey, hdata tile ▸ hlookup, hvalid, hmem⟩
    · right
      exact ⟨_, rfl, hsubscribed⟩
  · exact .inl ⟨t, ht, rfl, rfl, rfl, rfl⟩

/-- No requested tile is lost. -/
theorem conserves_afterRequest :
    b.Conserves c tileCombined canForceKeyframe session
      (b.afterRequest c env tileCombined canForceKeyframe session) := by
  have haccumulated := accumulated_requestedTiles h env canForceKeyframe
  obtain ⟨taken, htaken, -⟩ := requestedScan_turns h env canForceKeyframe
  constructor
  case distinct =>
    have hsublist : ((b.afterRequest c env tileCombined canForceKeyframe session).sessions
        session).requestedTiles.Sublist ((b.accumulated c env tileCombined canForceKeyframe
          session).sessions session).requestedTiles := by
      rw [htaken]
      exact List.sublist_append_right _ _
    have hplaces : ((b.afterRequest c env tileCombined canForceKeyframe session).sessions
        session).requestedTiles.map (placeIn (b.sessions session).canonicalViewId) =
          ((b.afterRequest c env tileCombined canForceKeyframe session).sessions
            session).requestedTiles.map cacheKey :=
      List.map_congr_left fun t ht =>
        placeIn_eq_cacheKey
          (canonicalViewId_of_accumulated h env canForceKeyframe (hsublist.subset ht))
    rw [hplaces]
    exact haccumulated.distinct.sublist (hsublist.map cacheKey)
  case requested =>
    intro tile htile
    obtain ⟨t, ht, hkey, hver, hold, hwid⟩ :=
      haccumulated.renewed _ (List.mem_map_of_mem htile)
    have hkept := kept_of_accumulated h env canForceKeyframe ht
    rw [hkey, hver, hold, hwid] at hkept
    exact hkept
  case queued =>
    intro tile htile hplace
    refine kept_of_accumulated h env canForceKeyframe
      (haccumulated.kept _ (List.mem_map_of_mem htile) ?_)
    rw [List.map_map]
    exact hplace

/-- The tiles of the request keep their version in the loop over the requested tiles. -/
theorem ver_of_accumulated {t : TileDesc}
    (ht : t ∈ ((b.accumulated c env tileCombined canForceKeyframe session).sessions
      session).requestedTiles) (hkey : cacheKey t ∈ tileCombined.tiles.map cacheKey) :
    t.ver = nextVersion b.tileVersion := by
  have haccumulated := accumulated_requestedTiles h env canForceKeyframe
  obtain ⟨tile, htile, hsame⟩ := List.mem_map.mp hkey
  obtain ⟨t', ht', hkey', hver, -⟩ := haccumulated.renewed _ (List.mem_map_of_mem htile)
  have heq : t' = t :=
    List.inj_on_of_nodup_map haccumulated.distinct ht' ht (hkey'.trans hsame)
  rw [← heq, hver]
  rfl

/-- A tile that the loop over the requested tiles takes is pushed by both loops just if its
rendering stays outdated. -/
theorem isPushedAgain_iff {t : TileDesc}
    (ht : t ∈ ((b.accumulated c env tileCombined canForceKeyframe session).sessions
      session).requestedTiles) :
    (isPushedAgain (b.combinedScan c env tileCombined canForceKeyframe session).tileCache env.now
        t = true ∧ ∃ tile ∈ tileCombined.tiles, cacheKey tile = cacheKey t ∧
          isPushed c (nextVersion b.tileVersion) env.now tile = true) ↔
      cacheKey t ∈ tileCombined.tiles.map cacheKey ∧
        c.StaysOutdated session (nextVersion b.tileVersion) env.now t := by
  have hturns := combinedScan_turns h env canForceKeyframe
  have hagain {tile : TileDesc} (htile : tile ∈ tileCombined.tiles)
      (hkey : cacheKey tile = cacheKey t)
      (hpushed : isPushed c (nextVersion b.tileVersion) env.now tile = true) :
      isPushedAgain (b.combinedScan c env tileCombined canForceKeyframe session).tileCache env.now
          t = true ↔ c.StaysOutdated session (nextVersion b.tileVersion) env.now t := by
    obtain ⟨tile', hver, hjoined⟩ := hturns.joined tile htile hpushed
    have hneeds := TileCache.needsRendering_joined_iff (c := c) hver
      (ver_of_accumulated h env canForceKeyframe ht (hkey ▸ List.mem_map_of_mem htile))
      (hkey ▸ hjoined)
    have hfind : c.findTileBeingRendered tile = c.findTileBeingRendered t :=
      congrArg c.tilesBeingRendered hkey
    rw [isPushedAgain, hturns.sameData t, Bool.and_eq_true, Option.isNone_iff_eq_none, hneeds,
      hfind]
    rfl
  constructor
  · rintro ⟨hpushed', tile, htile, hkey, hpushed⟩
    exact ⟨hkey ▸ List.mem_map_of_mem htile, (hagain htile hkey hpushed).mp hpushed'⟩
  · rintro ⟨hmem, houtdated⟩
    obtain ⟨tile, htile, hkey⟩ := List.mem_map.mp hmem
    have hpushed : isPushed c (nextVersion b.tileVersion) env.now tile = true := by
      obtain ⟨hinvalid, found, hfound, hold⟩ := houtdated
      rw [← TileCache.lookupTile_congr c hkey] at hinvalid
      have hfind : c.findTileBeingRendered { tile with ver := nextVersion b.tileVersion } =
          some found := (congrArg c.tilesBeingRendered hkey).trans hfound
      rw [isPushed, TileCache.needsRendering_eq, hfind]
      cases hlookup : c.lookupTile tile with
      | none => simpa [hlookup] using hold.imp_right And.left
      | some cached =>
          rw [hlookup] at hinvalid
          have hnot : cached.valid = false := by simpa [Option.filter] using hinvalid
          simpa [hlookup, hnot] using hold.imp_right And.left
    exact ⟨(hagain htile hkey hpushed).mpr houtdated, tile, htile, hkey, hpushed⟩

/-- The tiles that are pushed are in different places just if none that stays outdated is taken. -/
theorem pushedTiles_nodup_iff :
    ((b.pushedTiles c env tileCombined canForceKeyframe session).map cacheKey).Nodup ↔
      b.TakesNoneOutdated c env tileCombined canForceKeyframe session := by
  have haccumulated := accumulated_requestedTiles h env canForceKeyframe
  have hpushed := (combinedScan_turns h env canForceKeyframe).pushed
  obtain ⟨taken, htaken, hturns, hnone⟩ :=
    requestedScan_turns h env canForceKeyframe
  have hsublist : taken.Sublist ((b.accumulated c env tileCombined canForceKeyframe
      session).sessions session).requestedTiles := by
    rw [htaken]
    exact List.sublist_append_left _ _
  have hpushed' := hturns.pushed
  simp only [startScan, List.map_nil, List.nil_append] at hpushed hpushed'
  rw [hnone, pushedTiles, List.map_append, hpushed, hpushed', List.nodup_append]
  constructor
  · rintro ⟨-, -, hdisjoint⟩ tile htile hmem houtdated
    obtain ⟨hagain, tile', htile', hkey, hfirst⟩ :=
      (isPushedAgain_iff h env canForceKeyframe (hsublist.subset htile)).mpr ⟨hmem, houtdated⟩
    exact hdisjoint _ (List.mem_map_of_mem (List.mem_filter.mpr ⟨htile', hfirst⟩)) _
      (List.mem_map_of_mem (List.mem_filter.mpr ⟨htile, hagain⟩)) hkey
  · intro hnone
    refine ⟨h.distinct.sublist (List.filter_sublist.map cacheKey),
      haccumulated.distinct.sublist ((List.filter_sublist.trans hsublist).map cacheKey), ?_⟩
    rintro _ hfirst place hplace rfl
    obtain ⟨tile, htile, rfl⟩ := List.mem_map.mp hplace
    obtain ⟨tile', htile', hkey⟩ := List.mem_map.mp hfirst
    obtain ⟨htaken, hagain⟩ := List.mem_filter.mp htile
    obtain ⟨hrequest, hpushed⟩ := List.mem_filter.mp htile'
    obtain ⟨hmem, houtdated⟩ := (isPushedAgain_iff h env canForceKeyframe
      (hsublist.subset htaken)).mp ⟨hagain, tile', hrequest, hkey, hpushed⟩
    exact hnone tile htaken hmem houtdated

/-- A combined request conserves the tiles that are requested, and it has each of those that it
pushes for rendering rendered once just if none is taken whose rendering stays outdated. -/
theorem conservesTiles_iff :
    b.ConservesTiles c env tileCombined canForceKeyframe session ↔
      b.TakesNoneOutdated c env tileCombined canForceKeyframe session := by
  obtain ⟨rendered, requested, heq, hrendered, hrequested, hmessages⟩ :=
    handleTileCombinedRequest_eq h.typed h.cache (typed_of_uniform h.uniform) env canForceKeyframe
      session
  have hall : ((rendered ++ requested).flatMap (·.tiles)).Perm
      (b.pushedTiles c env tileCombined canForceKeyframe session) := by
    rw [List.flatMap_append]
    exact hrendered.append hrequested
  have hkeys : ((rendered ++ requested).flatMap fun r => r.tiles.map cacheKey).Perm
      ((b.pushedTiles c env tileCombined canForceKeyframe session).map cacheKey) := by
    rw [← List.map_flatMap]
    exact hall.map cacheKey
  rw [← pushedTiles_nodup_iff h env canForceKeyframe, List.nodup_iff_count_eq_one]
  constructor
  · rintro ⟨b', messages, heq', -, hrenders⟩ place hplace
    rw [heq] at heq'
    obtain ⟨tile, htile, rfl⟩ := List.mem_map.mp hplace
    cases heq'
    rw [← hkeys.count_eq]
    exact hrenders.once tile htile
  · intro hdistinct
    refine ⟨_, _, heq, conserves_afterRequest h env canForceKeyframe, hall, fun tile htile => ?_,
      fun r hr => (hmessages r hr).1, fun r hr => (hmessages r hr).2⟩
    rw [hkeys.count_eq]
    exact hdistinct _ (List.mem_map_of_mem htile)

end

def sharedTile : TileDesc :=
  { TileDesc.parseDefaults with
    width := 256, height := 256, tileWidth := 3840, tileHeight := 3840, ver := 3 }

/-- A cache without tiles, one of which is being rendered, or is not. -/
def sharedCache (rendering : Option (TileBeingRendered Nat)) : TileCache Nat :=
  ⟨[], fun place => if place = cacheKey sharedTile then rendering else none, 0, 1024, false⟩

def sharedBroker (rendering : Option (TileBeingRendered Nat)) : TileBroker Nat where
  tileVersion := 3
  tileCache := some (sharedCache rendering)
  sessions _ := ⟨0, fun _ => none, [], [], []⟩

theorem requestable_sharedBroker (rendering : Option (TileBeingRendered Nat)) :
    (sharedBroker rendering).Requestable (sharedCache rendering) (.ofTile sharedTile) 0 := by
  have huniform : (TileCombined.ofTile sharedTile).Uniform := by
    refine ⟨by constructor <;> decide, fun t ht => ?_⟩
    rw [List.mem_singleton.mp ht]
    exact ⟨by constructor <;> decide, rfl⟩
  exact ⟨fun _ => ⟨Int.le_refl 0, (by decide : IsInt32 0), List.forall_mem_nil _⟩, rfl, huniform,
    rfl, by decide, List.nodup_nil⟩

/-- The first request for a tile. -/
theorem conservesTiles_firstRequest : (sharedBroker none).ConservesTiles (sharedCache none)
    ⟨0, 10, fun _ => true⟩ (.ofTile sharedTile) false 0 := by
  refine (conservesTiles_iff (requestable_sharedBroker none) ⟨0, 10, fun _ => true⟩ false).mpr ?_
  refine fun _ => ⟨fun _ houtdated => ?_, trivial⟩
  obtain ⟨-, t, ht, -⟩ := houtdated
  simp [TileCache.findTileBeingRendered, sharedCache] at ht

/-- A session asks for a tile that is being rendered for another one: the Kit is asked to render it
twice. -/
theorem not_conservesTiles_sharedTile :
    ¬ (sharedBroker (some ⟨[1], 0, sharedTile⟩)).ConservesTiles
      (sharedCache (some ⟨[1], 0, sharedTile⟩)) ⟨0, 10, fun _ => true⟩ (.ofTile sharedTile) false
      0 := by
  rintro ⟨b', messages, -, -, hrenders⟩
  have hpushed : ((sharedBroker (some ⟨[1], 0, sharedTile⟩)).pushedTiles
      (sharedCache (some ⟨[1], 0, sharedTile⟩)) ⟨0, 10, fun _ => true⟩ (.ofTile sharedTile) false
      0).map cacheKey = [cacheKey sharedTile, cacheKey sharedTile] := by decide +kernel
  have hkeys := hrenders.all.map cacheKey
  rw [hpushed, List.map_flatMap] at hkeys
  have hmem : cacheKey sharedTile ∈ [cacheKey sharedTile, cacheKey sharedTile] := by simp
  obtain ⟨tile, htile, hkey⟩ := List.mem_map.mp (hpushed ▸ hmem)
  have hone := hrenders.once tile htile
  rw [hkeys.count_eq, hkey] at hone
  exact absurd hone (by decide)

end TileBroker

end CoolOnline.Wsd
