import CoolOnline.Wsd.DeltaStream

/-! # The tile cache

`TileCache` of `wsd/TileCache.cpp`: the cached tiles, and the tiles that the Kit is rendering with
the sessions that wait for them.
-/

namespace CoolOnline.Wsd

/-- A tile is waited for this long before it counts as stalled. -/
def commandTimeoutMs : Int := 5000

/-- Tracks the rendering of a tile; the version is that of the tile. -/
structure TileBeingRendered (σ : Type) where
  subscribers : List σ
  startTime : Int
  tile : TileDesc
deriving DecidableEq

namespace TileBeingRendered

variable {σ : Type} (t : TileBeingRendered σ)

/-- If two in-progress renders race each other, the completion of the first is not to remove the
subscribers waiting for the second. -/
def version : Int := t.tile.ver

def setVersion (version : Int) : TileBeingRendered σ :=
  { t with tile := { t.tile with ver := version } }

def isStale (now : Int) : Bool := commandTimeoutMs < now - t.startTime

@[simp] theorem setVersion_version (version : Int) : (t.setVersion version).version = version := rfl

@[simp] theorem setVersion_subscribers (version : Int) :
    (t.setVersion version).subscribers = t.subscribers := rfl

@[simp] theorem cacheKey_setVersion (version : Int) :
    cacheKey (t.setVersion version).tile = cacheKey t.tile := rfl

end TileBeingRendered

structure TileCache (σ : Type) where
  cache : List (TileDesc × TileData)
  tilesBeingRendered : TileKey → Option (TileBeingRendered σ)
  cacheSize : Int
  maxCacheSize : Nat
  dontCache : Bool

namespace TileCache

variable {σ : Type} (c : TileCache σ)

/-- The constructor. -/
def new (dontCache : Bool) : TileCache σ := ⟨[], fun _ => none, 0, 1024 * 1024, dontCache⟩

def findTile (desc : TileDesc) : Option TileData :=
  (c.cache.find? fun entry => cacheKey entry.1 == cacheKey desc).map Prod.snd

def lookupTile (desc : TileDesc) : Option TileData := if c.dontCache then none else c.findTile desc

theorem lookupTile_congr {desc desc' : TileDesc} (h : cacheKey desc = cacheKey desc') :
    c.lookupTile desc = c.lookupTile desc' := by
  simp only [lookupTile, findTile, h]

def findTileBeingRendered (desc : TileDesc) : Option (TileBeingRendered σ) :=
  c.tilesBeingRendered (cacheKey desc)

/-- If the rendering has stalled, it is to be issued again. -/
def hasTileBeingRendered (desc : TileDesc) (now : Int) : Bool :=
  match c.findTileBeingRendered desc with
  | none => false
  | some t => !t.isStale now

def getTileBeingRenderedVersion (desc : TileDesc) : Int :=
  match c.findTileBeingRendered desc with
  | none => 0
  | some t => t.version

/-! ## The size of the cache -/

/-- The size of a pointer to a tile and of a description, and of the data. -/
def itemCacheSize (tile : TileData) : Nat := 16 + 56 + tile.size

/-- The wire id up to which tiles go, to free more than `limit`. -/
def removeUpTo (limit : Nat) : List (Nat × Nat) → Nat → Nat → Nat
  | [], _, maxToRemove => maxToRemove
  | (wid, size) :: wids, total, _ =>
      if limit < total + size then wid else removeUpTo limit wids (total + size) wid

def maxToRemove : Nat :=
  let wids := (c.cache.map fun (desc, tile) => (desc.wireId, itemCacheSize tile)).mergeSort
    fun a b => a.1 ≤ b.1
  let front := (wids.head?.map Prod.fst).getD 0
  let back := (wids.getLast?.map Prod.fst).getD 0
  if 256 * 256 * 256 < back - front then back
  else removeUpTo (c.maxCacheSize / 4) wids 0 front

/-- A tile that is waited for stays, so as not to get a delta instead of a keyframe at the
bottom. -/
def isKept (entry : TileDesc × TileData) : Bool :=
  c.maxToRemove < entry.1.wireId || (c.tilesBeingRendered (cacheKey entry.1)).isSome

def ensureCacheSize : TileCache σ :=
  if c.cacheSize < c.maxCacheSize ∨ c.cache.length < 2 then c
  else
    { c with
      cache := c.cache.filter c.isKept
      cacheSize := c.cacheSize -
        ((c.cache.filter fun entry => !c.isKept entry).map fun entry => itemCacheSize entry.2).sum }

@[simp] theorem ensureCacheSize_tilesBeingRendered :
    c.ensureCacheSize.tilesBeingRendered = c.tilesBeingRendered := by
  rw [ensureCacheSize]
  split <;> rfl

/-- What is being rendered is not cleaned out. -/
theorem findTile_ensureCacheSize {desc : TileDesc}
    (hrendered : (c.findTileBeingRendered desc).isSome = true) :
    c.ensureCacheSize.findTile desc = c.findTile desc := by
  have hkept : ∀ entry : TileDesc × TileData,
      decide (c.isKept entry = true ∧ (cacheKey entry.1 == cacheKey desc) = true) =
        (cacheKey entry.1 == cacheKey desc) := by
    intro entry
    by_cases hkey : cacheKey entry.1 = cacheKey desc
    · have hsome : (c.tilesBeingRendered (cacheKey desc)).isSome = true := hrendered
      simp [isKept, hkey, hsome]
    · simp [hkey]
  rw [ensureCacheSize]
  split
  · rfl
  · simp only [findTile, List.find?_filter, hkept]

/-! ## Replies and subscriptions -/

/-- The tile, and the cache with it; a delta without a tile is discarded. -/
def saveDataToCache (desc : TileDesc) (data : Payload) : Option TileData × TileCache σ :=
  if c.dontCache then (some (TileData.new desc.wireId data), c)
  else
    let c := c.ensureCacheSize
    match c.findTile desc with
    | none =>
        if TileData.isKeyframe data then
          let tile := TileData.new desc.wireId data
          (some tile, { c with
            cache := c.cache ++ [(desc, tile)]
            cacheSize := c.cacheSize + itemCacheSize tile })
        else (none, c)
    | some tile =>
        let (tile, change) := tile.appendBlob desc.wireId data
        (some tile, { c with
          cache := c.cache.map fun entry =>
            if cacheKey entry.1 == cacheKey desc then (entry.1, tile) else entry
          cacheSize := c.cacheSize + change })

@[simp] theorem saveDataToCache_tilesBeingRendered (desc : TileDesc) (data : Payload) :
    (c.saveDataToCache desc data).2.tilesBeingRendered = c.tilesBeingRendered := by
  simp only [saveDataToCache]
  split
  case isTrue => rfl
  case isFalse =>
    cases c.ensureCacheSize.findTile desc with
    | none => cases TileData.isKeyframe data <;> simp
    | some tile => simp

/-- The tile that is saved is the cached one with the frame added. -/
theorem saveDataToCache_tile (desc : TileDesc) (data : Payload) (hcache : c.dontCache = false) :
    (c.saveDataToCache desc data).1 = saveFrame (c.ensureCacheSize.findTile desc) desc data := by
  simp only [saveDataToCache, hcache, Bool.false_eq_true, if_false]
  cases c.ensureCacheSize.findTile desc with
  | none => cases hkey : TileData.isKeyframe data <;> simp [saveFrame, hkey]
  | some tile => rfl

/-- A frame for a tile that is being rendered is discarded only if it is a delta and the tile has
no data. -/
theorem isSome_saveDataToCache {desc : TileDesc} {data : Payload}
    (hrendered : (c.findTileBeingRendered desc).isSome = true)
    (hsave : c.dontCache = true ∨ (c.findTile desc).isSome = true ∨
      TileData.isKeyframe data = true) : (c.saveDataToCache desc data).1.isSome = true := by
  cases hcache : c.dontCache with
  | true => simp [saveDataToCache, hcache]
  | false =>
      rw [saveDataToCache_tile c desc data hcache, findTile_ensureCacheSize c hrendered]
      cases htile : c.findTile desc with
      | none =>
          have hkey : TileData.isKeyframe data = true := by simpa [hcache, htile] using hsave
          simp [saveFrame, hkey]
      | some tile => rfl

/-- Forget the tile being rendered, if the reply is the latest version we expect. -/
def forgetTileBeingRendered (descForKitReply : TileDesc) (t : TileBeingRendered σ) : TileCache σ :=
  if t.version ≤ descForKitReply.ver then
    { c with tilesBeingRendered := Function.update c.tilesBeingRendered (cacheKey t.tile) none }
  else c

/-- The cache after a reply of the Kit, and the sessions that are sent the tile. -/
def saveTileAndNotify (desc : TileDesc) (data : Payload) :
    TileCache σ × List (σ × TileData) :=
  let tileBeingRendered := c.findTileBeingRendered desc
  let (tile, c) := c.saveDataToCache desc data
  match tileBeingRendered with
  | none => (c, [])
  | some t =>
      let notified := match tile with
        | some tile => t.subscribers.map fun session => (session, tile)
        | none => []
      (c.forgetTileBeingRendered desc t, notified)

/-- What a reply leaves, and the sessions that it is delivered to. -/
theorem saveTileAndNotify_eq (desc : TileDesc) (data : Payload) :
    (c.findTileBeingRendered desc = none ∧ (c.saveTileAndNotify desc data).2 = [] ∧
        (c.saveTileAndNotify desc data).1.tilesBeingRendered = c.tilesBeingRendered) ∨
      ∃ t, c.findTileBeingRendered desc = some t ∧
        (c.saveTileAndNotify desc data).1.tilesBeingRendered =
          (if t.version ≤ desc.ver then
            Function.update c.tilesBeingRendered (cacheKey t.tile) none
          else c.tilesBeingRendered) ∧
        ((c.saveDataToCache desc data).1.isSome = true →
          (c.saveTileAndNotify desc data).2.map Prod.fst = t.subscribers) := by
  cases hfind : c.findTileBeingRendered desc with
  | none => exact .inl ⟨rfl, by simp [saveTileAndNotify, hfind]⟩
  | some t =>
      refine .inr ⟨t, rfl, ?_, ?_⟩
      · simp only [saveTileAndNotify, hfind, forgetTileBeingRendered]
        split <;> simp
      · intro hsome
        obtain ⟨tile, htile⟩ := Option.isSome_iff_exists.mp hsome
        simp [saveTileAndNotify, hfind, htile, Function.comp_def]

section Subscribe

variable [DecidableEq σ]

/-- The cache, and whether the session was not subscribed to the tile already. -/
def subscribeToTileRendering (tile : TileDesc) (subscriber : σ) (now : Int) :
    TileCache σ × Bool :=
  let set (t : TileBeingRendered σ) : TileCache σ :=
    { c with tilesBeingRendered := Function.update c.tilesBeingRendered (cacheKey tile) (some t) }
  match c.findTileBeingRendered tile with
  | none => (set ⟨[subscriber], now, tile⟩, true)
  | some t =>
      -- the version stops us unsubscribing when we get there
      if subscriber ∈ t.subscribers then (set (t.setVersion tile.ver), false)
      else (set { t with subscribers := t.subscribers ++ [subscriber] }, true)

/-- A subscription leaves the cached tiles as they are. -/
theorem subscribeToTileRendering_lookupTile (tile : TileDesc) (subscriber : σ) (now : Int)
    (desc : TileDesc) :
    (c.subscribeToTileRendering tile subscriber now).1.lookupTile desc = c.lookupTile desc := by
  simp only [subscribeToTileRendering]
  cases c.findTileBeingRendered tile with
  | none => rfl
  | some t => by_cases hmem : subscriber ∈ t.subscribers <;> simp [hmem, lookupTile, findTile]

/-- The session is among the subscribers then. The version is that of the request, unless the
session joins a rendering that others wait for. -/
theorem subscribeToTileRendering_eq {tile : TileDesc} (session : σ) (now : Int)
    (hkey : ∀ t, c.findTileBeingRendered tile = some t → cacheKey t.tile = cacheKey tile) :
    ∃ t', (c.subscribeToTileRendering tile session now).1 =
        { c with tilesBeingRendered :=
          Function.update c.tilesBeingRendered (cacheKey tile) (some t') } ∧
      cacheKey t'.tile = cacheKey tile ∧ session ∈ t'.subscribers ∧
      (∀ t, c.findTileBeingRendered tile = some t → t.subscribers ⊆ t'.subscribers) ∧
      (t'.version = tile.ver ∨
        ∃ t, c.findTileBeingRendered tile = some t ∧ session ∉ t.subscribers ∧
          t'.version = t.version) := by
  cases hfind : c.findTileBeingRendered tile with
  | none =>
      refine ⟨⟨[session], now, tile⟩, ?_, rfl, by simp, by simp, .inl rfl⟩
      simp [subscribeToTileRendering, hfind]
  | some t =>
      by_cases hmem : session ∈ t.subscribers
      · refine ⟨t.setVersion tile.ver, ?_, hkey t hfind, hmem, ?_, .inl rfl⟩
        · simp [subscribeToTileRendering, hfind, hmem]
        · rintro _ ⟨⟩
          exact List.Subset.refl _
      · refine ⟨{ t with subscribers := t.subscribers ++ [session] }, ?_, hkey t hfind, by simp,
          ?_, .inr ⟨t, rfl, hmem, rfl⟩⟩
        · simp [subscribeToTileRendering, hfind, hmem]
        · rintro _ ⟨⟩
          exact List.subset_append_left _ _

/-- What `DocumentBroker::requestTileRendering` leaves: the cache, the tile, the tiles to render,
and whether these are of one part and size. -/
structure Requested (σ : Type) where
  tileCache : TileCache σ
  tile : TileDesc
  tilesNeedsRendering : List TileDesc
  allSamePartAndSize : Bool

/-- There is no rendering of the tile in progress, or a newer version is needed. -/
def needsRendering (tile : TileDesc) (now : Int) : Bool :=
  !c.hasTileBeingRendered tile now || c.getTileBeingRenderedVersion tile < tile.ver

/-- The version that a session subscribes with: that of the rendering if it is requested. -/
def requestVersion (tile : TileDesc) (version now : Int) : Int :=
  if c.needsRendering tile now then version else tile.ver

/-- `DocumentBroker::requestTileRendering`. -/
def requestTileRendering (tile : TileDesc) (forceKeyframe : Bool) (version now : Int)
    (tilesNeedsRendering : List TileDesc) (session : σ) : Requested σ :=
  let needed := c.needsRendering tile now
  let tile :=
    if needed then
      { tile with ver := version, oldWireId := if forceKeyframe then 0 else tile.oldWireId }
    else tile
  { tileCache := (c.subscribeToTileRendering tile session now).1
    tile := tile
    tilesNeedsRendering := if needed then tilesNeedsRendering ++ [tile] else tilesNeedsRendering
    allSamePartAndSize := !needed ||
      (tilesNeedsRendering.getLast?.all fun last => tile.sameTileCombineParams last) }

section Request

variable (tile : TileDesc) (forceKeyframe : Bool) (version : Int) (session : σ)
  (now : Int)

theorem requestTileRendering_tileCache :
    (c.requestTileRendering tile forceKeyframe version now [] session).tileCache =
      (c.subscribeToTileRendering
        (c.requestTileRendering tile forceKeyframe version now [] session).tile session now).1 :=
  rfl

theorem requestTileRendering_ver :
    (c.requestTileRendering tile forceKeyframe version now [] session).tile.ver =
      c.requestVersion tile version now := by
  simp only [requestTileRendering, requestVersion]
  split <;> rfl

theorem cacheKey_requestTileRendering :
    cacheKey (c.requestTileRendering tile forceKeyframe version now [] session).tile =
      cacheKey tile := by
  simp only [requestTileRendering]
  split <;> rfl

end Request

end Subscribe

end TileCache

end CoolOnline.Wsd
