import CoolOnline.Wsd.TileCache

/-! # Tile requests

`handleTileRequest`, `handleTileCombinedRequest` and `sendRequestedTiles` of
`wsd/DocumentBroker.cpp`: what is sent from the cache, and what the Kit is asked to render.
-/

namespace CoolOnline.Wsd

namespace Word

def tilecombine : Payload := ['t', 'i', 'l', 'e', 'c', 'o', 'm', 'b', 'i', 'n', 'e']
def tileRequest : Payload := ['t', 'i', 'l', 'e']

end Word

/-- A message to the Kit, and the tiles that it asks for. -/
structure KitRequest where
  tiles : List TileDesc
  message : Payload
deriving DecidableEq

/-- What a session has of the tile requests: `sent` is what was given to its sender queue. -/
structure TileSession where
  canonicalViewId : Int
  tracker : ClientDeltaTracker
  requestedTiles : List TileDesc
  tilesOnFly : List (Nat × Int)
  sent : List Payload

/-- What the requests meet outside: the time, the limit on the tiles on the fly, and whether the
sender queue takes a message as a new one. -/
structure TileEnv where
  now : Int
  tilesOnFlyUpperLimit : Nat
  enqueues : Payload → Bool

namespace TileSession

variable (s : TileSession)

def sendTileNow (env : TileEnv) (desc : TileDesc) (tile : TileData) : TileSession :=
  let (tracker, message) := Wsd.sendTileNow s.tracker desc tile
  { s with
    tracker := tracker
    sent := s.sent ++ [message]
    tilesOnFly :=
      if env.enqueues message then s.tilesOnFly ++ [(desc.wireId, env.now)] else s.tilesOnFly }

/-- A tile from the cache is sent under the wire id of the request, or else under its last one. -/
def sendCached (env : TileEnv) (tile : TileDesc) (cachedTile : TileData) : TileSession :=
  s.sendTileNow env
    { tile with wireId := if tile.wireId = 0 then cachedTile.wids.getLastD 0 else tile.wireId }
    cachedTile

/-- `TILE_ROUNDTRIP_TIMEOUT_MS`. -/
def tileRoundtripTimeoutMs : Int := 10000

/-- Once one is dropped, those of a similar time are dropped with it. -/
def dropOutdated (now : Int) : List (Nat × Int) → Bool → List (Nat × Int)
  | [], _ => []
  | (wireId, sentAt) :: later, dropped =>
      if tileRoundtripTimeoutMs < now - sentAt ∨ dropped = true ∧ 9000 < now - sentAt then
        dropOutdated now later true
      else (wireId, sentAt) :: later

def removeOutdatedTilesOnFly (now : Int) : TileSession :=
  { s with tilesOnFly := dropOutdated now s.tilesOnFly false }

end TileSession

structure TileBroker (σ : Type) where
  tileVersion : Int
  tileCache : Option (TileCache σ)
  sessions : σ → TileSession

/-- `++_tileVersion`. -/
def nextVersion (tileVersion : Int) : Int := toInt32 (tileVersion + 1)

/-- `DocumentBroker::sendTileCombine`, for tiles that can be combined. -/
def sendTileCombine (tiles : List TileDesc) : Option KitRequest :=
  (TileCombined.create tiles).map fun c => ⟨tiles, c.serialize Word.tilecombine []⟩

namespace TileBroker

variable {σ : Type} [DecidableEq σ]

def updateSession (b : TileBroker σ) (session : σ) (s : TileSession) : TileBroker σ :=
  { b with sessions := Function.update b.sessions session s }

/-! ## A single tile -/

/-- The tile that is asked for, in the view of the session. -/
def parsedTile (b : TileBroker σ) (session : σ) (tile : TileDesc) : TileDesc :=
  { tile with
    canonicalViewId := (b.sessions session).canonicalViewId
    ver := nextVersion b.tileVersion }

/-- `DocumentBroker::handleTileRequest`; a tile that cannot be parsed throws. The message for the
Kit is the one of the tile as it was parsed. -/
def handleTileRequest (b : TileBroker σ) (env : TileEnv) (message : Payload) (forceKeyframe : Bool)
    (session : σ) : Option (TileBroker σ × List KitRequest) :=
  (TileDesc.parse message).map fun tile =>
    let tile := b.parsedTile session tile
    let tileMsg := tile.serialize [] []
    let s := b.sessions session
    let b := { b with tileVersion := tile.ver }
    match b.tileCache with
    | none => (b, [])
    | some tileCache =>
        let s := if forceKeyframe then { s with tracker := s.tracker.resetTileSeq tile } else s
        let cachedTile := tileCache.lookupTile tile
        match cachedTile.filter TileData.valid with
        | some cachedTile => (b.updateSession session (s.sendCached env tile cachedTile), [])
        | none =>
            let keyframe := cachedTile.all TileData.tooLarge
            let tile := if keyframe then { tile with oldWireId := 0 } else tile
            let (tileCache, _) := tileCache.subscribeToTileRendering tile session env.now
            ({ b.updateSession session s with tileCache := some tileCache },
              [⟨[tile], Word.tileRequest ++ [' '] ++ tileMsg⟩])

/-! ## The tiles of a session that are requested -/

/-- What the loop over the requested tiles has done. -/
structure RequestedScan (σ : Type) where
  tileVersion : Int
  bumpedVersion : Bool
  tileCache : TileCache σ
  session : TileSession
  tilesNeedsRendering : List TileDesc
  allSamePartAndSize : Bool

/-- The tile is sent from the cache, or its rendering is requested. -/
def RequestedScan.next (env : TileEnv) (subscriber : σ) (s : RequestedScan σ) (tile : TileDesc) :
    RequestedScan σ :=
  let cachedTile := s.tileCache.lookupTile tile
  match cachedTile.filter TileData.valid with
  | some cachedTile => { s with session := s.session.sendCached env tile cachedTile }
  | none =>
      let tileVersion := if s.bumpedVersion then s.tileVersion else nextVersion s.tileVersion
      let requested := s.tileCache.requestTileRendering tile cachedTile.isNone tileVersion env.now
        s.tilesNeedsRendering subscriber
      { s with
        tileVersion := tileVersion
        bumpedVersion := true
        tileCache := requested.tileCache
        tilesNeedsRendering := requested.tilesNeedsRendering
        allSamePartAndSize := s.allSamePartAndSize && requested.allSamePartAndSize }

/-- As many tiles as may be on the fly are taken; the rest stays requested. -/
def requestedLoop (env : TileEnv) (subscriber : σ) :
    List TileDesc → RequestedScan σ → List TileDesc × RequestedScan σ
  | [], s => ([], s)
  | tile :: requestedTiles, s =>
      if s.session.tilesOnFly.length < env.tilesOnFlyUpperLimit then
        requestedLoop env subscriber requestedTiles (s.next env subscriber tile)
      else (tile :: requestedTiles, s)

/-- The tile goes into the first group that it matches. -/
def addToGroup (tile : TileDesc) : List (List TileDesc) → List (List TileDesc)
  | [] => [[tile]]
  | group :: groups =>
      if group.head?.any fun first => tile.sameTileCombineParams first then
        (group ++ [tile]) :: groups
      else group :: addToGroup tile groups

def groupsOf (tiles : List TileDesc) : List (List TileDesc) :=
  tiles.foldl (fun groups tile => addToGroup tile groups) []

/-- The messages for the tiles to render, one for each group. -/
def sendGroups (tiles : List TileDesc) (allSamePartAndSize : Bool) : Option (List KitRequest) :=
  if tiles = [] then some []
  else (if allSamePartAndSize then [tiles] else groupsOf tiles).mapM sendTileCombine

/-- `DocumentBroker::sendRequestedTiles`. -/
def sendRequestedTiles (b : TileBroker σ) (env : TileEnv) (session : σ) :
    Option (TileBroker σ × List KitRequest) :=
  let s := (b.sessions session).removeOutdatedTilesOnFly env.now
  match b.tileCache with
  | none => some (b.updateSession session s, [])
  | some tileCache =>
      let (requestedTiles, scan) := requestedLoop env session s.requestedTiles
        ⟨b.tileVersion, false, tileCache, s, [], true⟩
      (sendGroups scan.tilesNeedsRendering scan.allSamePartAndSize).map fun messages =>
        ({ b.updateSession session { scan.session with requestedTiles := requestedTiles } with
            tileVersion := scan.tileVersion
            tileCache := some scan.tileCache },
          messages)

/-! ## Combined tiles -/

/-- What the loop over the tiles of a combined request has done. -/
structure CombinedScan (σ : Type) where
  tileCache : TileCache σ
  tracker : ClientDeltaTracker
  tiles : List TileDesc
  tilesNeedsRendering : List TileDesc
  hasOldWireId : Bool

/-- The client can force a keyframe to be sent, which does not force one to be rendered. -/
def CombinedScan.next (env : TileEnv) (canForceKeyframe : Bool) (version : Int) (subscriber : σ)
    (s : CombinedScan σ) (tile : TileDesc) : CombinedScan σ :=
  let forced := canForceKeyframe && tile.isForcedKeyFrame
  let tile := { tile with ver := version, oldWireId := if forced then 1 else tile.oldWireId }
  let tracker := if forced then s.tracker.resetTileSeq tile else s.tracker
  let cachedTile := s.tileCache.lookupTile tile
  let forceKeyFrame := cachedTile.isNone || cachedTile.any TileData.tooLarge
  if forceKeyFrame || !cachedTile.any TileData.valid then
    let tile := { tile with oldWireId := if forceKeyFrame then 0 else tile.oldWireId }
    let requested := s.tileCache.requestTileRendering tile forceKeyFrame version env.now
      s.tilesNeedsRendering subscriber
    ⟨requested.tileCache, tracker, s.tiles ++ [requested.tile], requested.tilesNeedsRendering,
      s.hasOldWireId || forced⟩
  else ⟨s.tileCache, tracker, s.tiles ++ [tile], s.tilesNeedsRendering, s.hasOldWireId || forced⟩

/-- A tile that is requested already gets the newer version and wire ids. -/
def addRequested (requestedTiles : List TileDesc) (newTile : TileDesc) : List TileDesc :=
  match requestedTiles with
  | [] => [newTile]
  | oldTile :: rest =>
      if oldTile.tilePosX = newTile.tilePosX ∧ oldTile.tilePosY = newTile.tilePosY ∧
          oldTile.sameTileCombineParams newTile = true then
        { oldTile with
          ver := newTile.ver, oldWireId := newTile.oldWireId, wireId := newTile.wireId } :: rest
      else oldTile :: addRequested rest newTile

def accumulateTiles (canonicalViewId : Int) (requestedTiles tiles : List TileDesc) :
    List TileDesc :=
  if requestedTiles = [] then tiles
  else
    tiles.foldl addRequested
      (requestedTiles.map fun tile => { tile with canonicalViewId := canonicalViewId })

/-- `DocumentBroker::handleTileCombinedRequest`, with the tiles as they are left. -/
def handleTileCombinedRequest (b : TileBroker σ) (env : TileEnv) (tileCombined : TileCombined)
    (canForceKeyframe : Bool) (session : σ) : Option (TileBroker σ × List KitRequest) :=
  match b.tileCache with
  | none => some (b, [])
  | some tileCache =>
      let version := nextVersion b.tileVersion
      let s := b.sessions session
      let scan := tileCombined.tiles.foldl (CombinedScan.next env canForceKeyframe version session)
        ⟨tileCache, s.tracker, [], [], false⟩
      let s :=
        { s with
          tracker := scan.tracker
          requestedTiles := accumulateTiles s.canonicalViewId s.requestedTiles scan.tiles }
      let b := { b.updateSession session s with
        tileVersion := version
        tileCache := some scan.tileCache }
      (sendGroups scan.tilesNeedsRendering true).bind fun rendered =>
        (b.sendRequestedTiles env session).map fun (b, requested) => (b, rendered ++ requested)

/-- `TileCombined::setCanonicalViewId`, what a client's combined request is put into the view of its
session with. -/
def setCanonicalViewId (tileCombined : TileCombined) (viewId : Int) : TileCombined :=
  { tileCombined with
    canonicalViewId := viewId
    tiles := tileCombined.tiles.map fun tile => { tile with canonicalViewId := viewId } }

/-! ## Requests -/

/-- A request, by the path that it takes: a single tile of a client, the combined tiles of a client
or of wsd, or the tiles that a session has requested before. -/
inductive TileRequest where
  | tile (message : Payload) (forceKeyframe : Bool)
  | tilecombine (tileCombined : TileCombined) (canForceKeyframe : Bool)
  | requestedTiles

/-- What a request makes of the broker, and what the Kit is sent. -/
def handle (b : TileBroker σ) (env : TileEnv) (session : σ) :
    TileRequest → Option (TileBroker σ × List KitRequest)
  | .tile message forceKeyframe => b.handleTileRequest env message forceKeyframe session
  | .tilecombine tileCombined canForceKeyframe =>
      b.handleTileCombinedRequest env tileCombined canForceKeyframe session
  | .requestedTiles => b.sendRequestedTiles env session

end TileBroker

end CoolOnline.Wsd
