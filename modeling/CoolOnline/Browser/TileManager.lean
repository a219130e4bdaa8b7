import CoolOnline.Browser.Tile
import CoolOnline.Library.OrderedMap
import Mathlib.Data.List.Sort

/-! # The tile manager of the browser

`TileManager` of `browser/src/app/TilesMiddleware.ts` and the worker of `CanvasTileWorkerSrc.js`:
the tiles, their raw deltas and bitmaps, and the transactions in which slices of raw deltas are
handed over for decompression. Each step is a task of the main thread, or part of one, or a message
that a worker handles.
-/

namespace CoolOnline.Browser

/-- The data of a tile message. -/
structure TileImage where
  rawData : List UInt8
  isKeyframe : Bool
deriving DecidableEq

/-- `endTransaction`, as it is posted to a worker. -/
structure WorkerMessage where
  deltas : List PendingDelta
  cachedTiles : List Key

/-- A delta that a worker has handled, and the image that it found for it. -/
structure Handled (ι : Type) where
  delta : PendingDelta
  found : Option ι

/-- A worker: the messages that it has not handled yet, and the replies that the main thread has
not. An error that was thrown reaches the main thread as an event, too. -/
structure TileWorker (ι : Type) where
  inbox : List WorkerMessage
  tileImageCache : OrderedMap Key ι
  replies : List (List (PendingDelta × ι))
  errors : Nat
  handled : List (Handled ι)

namespace TileWorker

variable {ι : Type} (codec : Codec ι)

def new : TileWorker ι := ⟨[], .empty, [], 0, []⟩

/-- The loop over the deltas of a message. There is no image of a tile that is not cached, and
using it throws. -/
def handleDeltas : List PendingDelta → TileWorker ι →
    TileWorker ι × Option (List (PendingDelta × ι))
  | [], w => (w, some [])
  | x :: deltas, w =>
      let found := w.tileImageCache.get x.coords.key
      let w := { w with handled := ⟨x, found⟩ :: w.handled }
      match codec.decompress found x with
      | none => (w, none)
      | some image =>
          let w := { w with tileImageCache := w.tileImageCache.set x.coords.key image }
          let (w, bitmaps) := handleDeltas deltas w
          (w, bitmaps.map fun bitmaps => (x, image) :: bitmaps)

/-- `onMessage`: images of tiles that the main thread does not list are dropped first. -/
def onMessage (w : TileWorker ι) (message : WorkerMessage) : TileWorker ι :=
  let w := { w with
    tileImageCache := w.tileImageCache.filterKeys fun key => key ∈ message.cachedTiles }
  match handleDeltas codec message.deltas w with
  | (w, some bitmaps) => { w with replies := w.replies ++ [bitmaps] }
  | (w, none) => { w with errors := w.errors + 1 }

end TileWorker

/-- `TileManager.tileSize`. -/
def tileSize : Int := 256

/-- The worker that a tile goes to each time. -/
def bucket (coords : TileCoordData) (workers : Nat) : Int :=
  ((2 * (coords.x + coords.y) + tileSize) / (2 * tileSize)).tmod workers

/-- What a worker gets of the pending deltas. -/
def bucketOf (pendingDeltas : List PendingDelta) (workers i : Nat) : List PendingDelta :=
  pendingDeltas.filter fun x => bucket x.coords workers = i

/-- The worker with its message, where there is something for it. -/
def TileWorker.postMessage {ι : Type} (w : TileWorker ι) (deltas : List PendingDelta)
    (cachedTiles : List Key) : TileWorker ι :=
  if deltas = [] then w else { w with inbox := w.inbox ++ [⟨deltas, cachedTiles⟩] }

def postDeltas {ι : Type} (workers : List (TileWorker ι)) (pendingDeltas : List PendingDelta)
    (cachedTiles : List Key) : List (TileWorker ι) :=
  workers.mapIdx fun i w => w.postMessage (bucketOf pendingDeltas workers.length i) cachedTiles

/-- What happens to the raw deltas: data arrives for a tile, or a slice is handed over. -/
inductive TileEntry where
  | received (coords : TileCoordData) (img : TileImage)
  | handed (rawDeltas : List RawDelta) (lastPendingId : Nat) (x : PendingDelta)

/-- The static fields of `TileManager`, with a history, newest first. Tiles are referred to by
their key; callbacks are numbers, and `called` those that were called. -/
structure TileManager (ι : Type) where
  tiles : OrderedMap Key (Tile ι)
  tileBitmapList : List Key
  tileImageCache : OrderedMap Key (Option ι)
  inTransaction : Nat
  pendingDeltas : List PendingDelta
  workers : List (TileWorker ι)
  nPendingWorkerTasks : Nat
  transactionCallbacks : List Nat
  called : List Nat
  bitmapPromises : List (List (PendingDelta × ι))
  pausedForCoherency : Bool
  dehydratedCurrentTiles : List Key
  fetchKeyframeQueue : List TileCoordData
  queuedProcessed : List Nat
  history : List TileEntry

namespace TileManager

variable {ι : Type}

/-- At the start; there are four workers, or none. -/
def start (haveWorkers : Bool) : TileManager ι :=
  { tiles := .empty, tileBitmapList := [], tileImageCache := .empty, inTransaction := 0,
    pendingDeltas := [], workers := if haveWorkers then List.replicate 4 .new else [],
    nPendingWorkerTasks := 0, transactionCallbacks := [], called := [], bitmapPromises := [],
    pausedForCoherency := false, dehydratedCurrentTiles := [], fetchKeyframeQueue := [],
    queuedProcessed := [], history := [] }

section Tiles

variable (m : TileManager ι)

def modifyTile (key : Key) (f : Tile ι → Tile ι) : TileManager ι :=
  { m with tiles := m.tiles.modify key f }

def distanceOf (key : Key) : Rat := ((m.tiles.get key).map Tile.distanceFromView).getD 0

def createTile (coords : TileCoordData) : TileManager ι :=
  if m.tiles.has coords.key then m
  else { m with tiles := m.tiles.set coords.key (.new coords) }

/-- The cached image is deleted under the text of the coordinates. -/
def reclaimTileBitmapMemory (key : Key) : TileManager ι :=
  match m.tiles.get key with
  | none => m
  | some tile =>
      if tile.image.isSome then
        { m with
          tiles := m.tiles.set key
            { tile with image := none, decompressedId := 0, lastPendingId := 0 }
          tileImageCache := m.tileImageCache.delete tile.coords.text
          tileBitmapList := m.tileBitmapList.erase key }
      else m

def removeTile (key : Key) : TileManager ι :=
  if m.tiles.has key then
    let m := m.reclaimTileBitmapMemory key
    { m with tiles := m.tiles.delete key }
  else m

def removeAllTiles : TileManager ι :=
  m.tiles.keys.foldl removeTile { m with tileBitmapList := [] }

/-! ## Garbage collection -/

def sortTileKeysByDistance : List Key :=
  m.tiles.keys.insertionSort fun a b => m.distanceOf b ≤ m.distanceOf a

/-- The raw deltas of tiles out of view are dropped until there are few enough. -/
def trimDeltas (lowDeltaMemory : Nat) : List Key → Nat → TileManager ι → TileManager ι
  | [], _, m => m
  | key :: keys, totalSize, m =>
      if totalSize ≤ lowDeltaMemory then m
      else
        match m.tiles.get key with
        | none => trimDeltas lowDeltaMemory keys totalSize m
        | some tile =>
            if tile.hasKeyframe && tile.distanceFromView ≠ 0 then
              trimDeltas lowDeltaMemory keys (totalSize - tile.deltaSize)
                ((m.reclaimTileBitmapMemory key).modifyTile key fun t =>
                  { t with rawDeltas := [] }.forceKeyframe 0)
            else trimDeltas lowDeltaMemory keys totalSize m

def removeDistant (m : TileManager ι) (key : Key) : TileManager ι :=
  if m.distanceOf key ≠ 0 then m.removeTile key else m

def highDeltaMemory : Nat := 120 * 1024 * 1024
def lowDeltaMemory : Nat := 100 * 1024 * 1024
def highTileCount : Nat := 2048
def lowTileCount : Nat := highTileCount - 128

/-- The tiles whose size counts: those that are not visible. -/
def distantTiles : List (Tile ι) := m.tiles.values.filter fun tile => tile.distanceFromView ≠ 0

/-- Trim memory down to size. -/
def trimMemory (high low : Nat) : TileManager ι :=
  let totalSize := (m.distantTiles.map Tile.deltaSize).sum
  if high < totalSize then trimDeltas low m.sortTileKeysByDistance totalSize m else m

/-- Trim the number of tiles down, which was counted before. -/
def trimTiles (tileCount high low : Nat) : TileManager ι :=
  if high < tileCount then
    (m.sortTileKeysByDistance.take (m.tiles.keys.length - low)).foldl removeDistant m
  else m

def garbageCollect (discardAll : Bool) : TileManager ι :=
  let tileCount := m.distantTiles.length
  if discardAll then (m.trimMemory 0 0).trimTiles tileCount 0 0
  else
    (m.trimMemory highDeltaMemory lowDeltaMemory).trimTiles tileCount highTileCount lowTileCount

/-! ## Bitmaps -/

/-- The number of bitmaps above which one is expired. -/
def highNumBitmaps : Nat := 250

/-- The binary search for the place of a tile in the list of those with bitmaps. -/
def bitmapPlace (distance : Rat) : Nat → Nat → Nat → Nat
  | 0, low, _ => low
  | turns + 1, low, high =>
      if low < high then
        let mid := (low + high) / 2
        if (m.tileBitmapList[mid]?.map m.distanceOf).any fun d => d < distance then
          bitmapPlace distance turns (mid + 1) high
        else bitmapPlace distance turns low mid
      else low

/-- The last tile is freed if there are too many bitmaps. -/
def freeLastTile : TileManager ι :=
  match m.tileBitmapList.getLast? with
  | some last =>
      if highNumBitmaps < m.tileBitmapList.length then m.reclaimTileBitmapMemory last else m
  | none => m

def setBitmapOnTile (key : Key) (bitmap : ι) : TileManager ι :=
  match m.tiles.get key with
  | none => m
  | some tile =>
      if tile.image.isSome then m.modifyTile key fun t => { t with image := some bitmap }
      else
        let m := m.freeLastTile
        let length := m.tileBitmapList.length
        let place :=
          if tile.distanceFromView = 0 then 0
          else m.bitmapPlace tile.distanceFromView (length + 1) 0 length
        { m with
          tileBitmapList := m.tileBitmapList.insertIdx place key }.modifyTile key fun t =>
            { t with image := some bitmap }

def sortTileBitmapList : TileManager ι :=
  { m with
    tileBitmapList := m.tileBitmapList.insertionSort fun a b => m.distanceOf a ≤ m.distanceOf b }

def tileReady (coords : TileCoordData) : TileManager ι := m.modifyTile coords.key Tile.trim

def visibleTilesReady : Bool :=
  m.tiles.values.all fun tile =>
    !(tile.distanceFromView = 0 && tile.lastPendingId ≠ 0 && !tile.isReady)

/-- All callbacks are called, the newest first. -/
def popCallbacks : TileManager ι :=
  { m with
    transactionCallbacks := []
    called := m.called ++ m.transactionCallbacks.reverse }

def handleBitmap (m : TileManager ι) (x : PendingDelta × ι) : TileManager ι :=
  match m.tiles.get x.1.coords.key with
  | none => m
  | some _ =>
      let m := m.setBitmapOnTile x.1.coords.key x.2
      match m.tiles.get x.1.coords.key with
      | none => m
      | some tile => if tile.isReady then m.tileReady tile.coords else m

def endTransactionHandleBitmaps (deltas : List (PendingDelta × ι)) : TileManager ι :=
  let m := deltas.foldl handleBitmap m
  let m := if m.visibleTilesReady then { m with pausedForCoherency := false } else m
  let m := if m.nPendingWorkerTasks = 0 then m.popCallbacks else m
  m.garbageCollect false

/-! ## Raw deltas -/

def applyCompressedDelta (tile : Tile ι) (x : PendingDelta) : TileManager ι :=
  { m.modifyTile x.coords.key fun t => { t with lastPendingId := x.ids.2 } with
    pendingDeltas := m.pendingDeltas ++ [x]
    history := .handed tile.rawDeltas tile.lastPendingId x :: m.history }

def rehydrateTile (key : Key) (wireMessage : Bool) : TileManager ι :=
  match m.tiles.get key with
  | none => m
  | some tile =>
      if tile.needsRehydration then
        let m :=
          if tile.distanceFromView = 0 then { m with pausedForCoherency := true } else m
        -- there is a slice where rehydration is needed: see `slice_spec`
        match slice tile.coords tile.rawDeltas tile.lastPendingId wireMessage with
        | some x => m.applyCompressedDelta tile x
        | none => m
      else m

def makeTileCurrent (key : Key) : TileManager ι :=
  (m.modifyTile key fun t => { t with distanceFromView := 0 }).rehydrateTile key false

/-- The tile of a message, with its distance where it is created. -/
def tileForMsg (coords : TileCoordData) (distance : Rat) : TileManager ι :=
  if m.tiles.has coords.key then m
  else
    (m.createTile coords).modifyTile coords.key fun t => { t with distanceFromView := distance }

/-- The keyframe may have been garbage collected here, and not in wsd. -/
def requestKeyframe (coords : TileCoordData) : TileManager ι :=
  { m.modifyTile coords.key fun t => t.forceKeyframe 0 with
    fetchKeyframeQueue := m.fetchKeyframeQueue ++ [coords] }

/-- The compressed data is stored for later decompression. -/
def storeRawDelta (coords : TileCoordData) (img : TileImage) : TileManager ι :=
  { m.modifyTile coords.key fun t => t.append img.rawData img.isKeyframe with
    history := .received coords img :: m.history }

def onTileMsg (coords : TileCoordData) (distance : Rat) (wireId : Nat) (img : Option TileImage) :
    TileManager ι :=
  let m := m.tileForMsg coords distance
  match m.tiles.get coords.key with
  | none => m
  | some tile =>
      let m := m.modifyTile coords.key fun t => { t with wireId := wireId }
      let noKeyframe := img.any fun img => !img.isKeyframe && !tile.hasKeyframe
      let m := if noKeyframe then m.requestKeyframe coords else m
      let m :=
        match img.filter fun img => img.rawData ≠ [] with
        | none => m
        | some img =>
            if noKeyframe then { m with history := .received coords img :: m.history }
            else m.storeRawDelta coords img
      let m := if tile.distanceFromView = 0 then m.rehydrateTile coords.key true else m
      { m with queuedProcessed := m.queuedProcessed ++ [wireId] }

/-! ## Transactions -/

def beginTransaction : TileManager ι := { m with inTransaction := m.inTransaction + 1 }

def disableWorkers : TileManager ι :=
  if m.workers = [] then m
  else
    { m with
      workers := [], pendingDeltas := [], nPendingWorkerTasks := 0 }.popCallbacks.removeAllTiles

def postMessages : TileManager ι :=
  { m with
    workers := postDeltas m.workers m.pendingDeltas m.tileImageCache.keys
    nPendingWorkerTasks := m.nPendingWorkerTasks +
      ((List.range m.workers.length).filter fun i =>
        bucketOf m.pendingDeltas m.workers.length i ≠ []).length
    pendingDeltas := [] }

/-! ## Replies -/

/-- What the loop over the deltas of a reply has done. -/
structure ReplyScan (ι : Type) where
  manager : TileManager ι
  bitmaps : List (PendingDelta × ι)
  promises : List (PendingDelta × ι)

/-- The raw deltas that were decompressed, if both ends are still there. -/
def decompressed (tile : Tile ι) (ids : Nat × Nat) : List RawDelta :=
  match tile.rawDeltas.findIdx? (fun d => d.id = ids.1),
      tile.rawDeltas.findIdx? (fun d => d.id = ids.2) with
  | some firstDelta, some lastDelta => (tile.rawDeltas.take (lastDelta + 1)).drop firstDelta
  | _, _ => []

/-- `applyDelta` and `createTileBitmap`, on the main thread, where images are cached under the text
of the coordinates. -/
def decompressHere (codec : Codec ι) (x : PendingDelta) (s : ReplyScan ι) : ReplyScan ι :=
  match codec.decompress ((s.manager.tileImageCache.get x.coords.text).join) x with
  | none => s
  | some image =>
      { s with
        manager := { s.manager with
          tileImageCache := s.manager.tileImageCache.set x.coords.text (some image) }
        promises := s.promises ++ [(x, image)] }

def handleReply (codec : Codec ι) (s : ReplyScan ι) (x : PendingDelta × Option ι) : ReplyScan ι :=
  match s.manager.tiles.get x.1.coords.key with
  | none => s
  | some tile =>
      let s := { s with
        manager := s.manager.modifyTile x.1.coords.key fun t =>
          { t with decompressedId := x.1.ids.2 } }
      if x.1.wireMessage && !x.1.isKeyframe && decompressed tile x.1.ids = [] then s
      else if !x.1.isKeyframe && tile.decompressedId = 0 then s
      else
        match x.2 with
        | none => decompressHere codec x.1 s
        | some bitmap =>
            { s with
              manager := { s.manager with
                tileImageCache := s.manager.tileImageCache.set x.1.coords.key none }
              bitmaps := s.bitmaps ++ [(x.1, bitmap)] }

/-- The bitmaps of a reply are handled, or once they are ready. -/
def ReplyScan.finish (s : ReplyScan ι) : TileManager ι :=
  let m := if s.bitmaps ≠ [] then s.manager.endTransactionHandleBitmaps s.bitmaps else s.manager
  if s.promises ≠ [] then { m with bitmapPromises := m.bitmapPromises ++ [s.promises] } else m

def onWorkerMessage (codec : Codec ι) (deltas : List (PendingDelta × Option ι)) : TileManager ι :=
  (deltas.foldl (handleReply codec)
    ⟨{ m with nPendingWorkerTasks := m.nPendingWorkerTasks - 1 }, [], []⟩).finish

/-- Without workers the pending deltas are decompressed at once. A tile that no worker is for throws,
which disables them. -/
def decompressPendingDeltas (codec : Codec ι) : TileManager ι :=
  if m.workers = [] then
    { { m with nPendingWorkerTasks := m.nPendingWorkerTasks + 1 }.onWorkerMessage codec
        (m.pendingDeltas.map fun x => (x, none)) with pendingDeltas := [] }
  else m.postMessages

/-- A tile that no worker is for. -/
def noBucket : Bool := m.pendingDeltas.any fun x => bucket x.coords m.workers.length < 0

/-- The end of the outermost transaction decompresses what is pending. -/
def endTransaction (codec : Codec ι) (callback : Option Nat) : TileManager ι :=
  if m.inTransaction = 0 then m
  else
    let m := { m with
      inTransaction := m.inTransaction - 1
      transactionCallbacks := m.transactionCallbacks ++ callback.toList }
    if m.inTransaction ≠ 0 then m
    else if m.pendingDeltas = [] then
      match callback with
      | none => m
      | some callback =>
          { m with
            transactionCallbacks := m.transactionCallbacks.dropLast
            called := m.called ++ [callback] }
    else if m.workers ≠ [] ∧ m.noBucket = true then
      let m := m.disableWorkers
      { m with called := m.called ++ callback.toList }
    else m.decompressPendingDeltas codec

/-! ## Tasks of the main thread -/

def updateAllTileDistances (distance : TileCoordData → Rat) : TileManager ι :=
  { m with
    tiles := m.tiles.mapValues fun t =>
      { t with distanceFromView := distance t.coords } }.sortTileBitmapList

def reclaimGraphicsMemory : TileManager ι :=
  m.tiles.keys.foldl (fun m key =>
    let m :=
      if m.distanceOf key = 0 then
        { m with dehydratedCurrentTiles := m.dehydratedCurrentTiles ++ [key] }
      else m
    m.reclaimTileBitmapMemory key) m

/-- A turn of the loop of `rehydrateCurrentTiles`. -/
def rehydrateCurrentTile : TileManager ι :=
  match m.dehydratedCurrentTiles.getLast? with
  | none => m
  | some key =>
      { m with dehydratedCurrentTiles := m.dehydratedCurrentTiles.dropLast
        }.rehydrateTile key false

def invalidateTile (key : Key) (wireId : Nat) : TileManager ι :=
  match m.tiles.get key with
  | none => m
  | some tile =>
      if tile.hasContent then
        m.modifyTile key fun t => t.forceKeyframe (if wireId = 0 then t.wireId else wireId)
      else m.removeTile key

end Tiles

/-- What can happen: a function of the main thread is called, a worker handles its next message, or
one of its replies or errors reaches the main thread. A task that calls several functions, such as
`getMissingTiles` or `rehydrateCurrentTiles`, is several events. -/
inductive Event where
  | beginTransaction
  | endTransaction (callback : Option Nat)
  | onTileMsg (coords : TileCoordData) (distance : Rat) (wireId : Nat) (img : Option TileImage)
  | createTile (coords : TileCoordData)
  | makeTileCurrent (key : Key)
  | updateAllTileDistances (distance : TileCoordData → Rat)
  | garbageCollect (discardAll : Bool)
  | reclaimTileBitmapMemory (key : Key)
  | reclaimGraphicsMemory
  | rehydrateTile (key : Key)
  | rehydrateCurrentTile
  | tileReady (coords : TileCoordData)
  | removeTile (key : Key)
  | removeAllTiles
  | invalidateTile (key : Key) (wireId : Nat)
  | refreshTilesInBackground
  | workerHandles (i : Nat)
  | workerReply (i reply : Nat)
  | workerError (i : Nat)
  | bitmapsReady (promise : Nat)

variable (codec : Codec ι)

/-- A worker takes its next message. -/
def workerHandles (m : TileManager ι) (i : Nat) : Option (TileManager ι) :=
  match m.workers[i]? with
  | none => none
  | some w =>
      match w.inbox with
      | [] => none
      | message :: inbox =>
          some { m with
            workers := m.workers.set i ({ w with inbox := inbox }.onMessage codec message) }

/-- A reply of a worker is handled. -/
def workerReply (m : TileManager ι) (i reply : Nat) : Option (TileManager ι) :=
  match m.workers[i]? with
  | none => none
  | some w =>
      (w.replies[reply]?).map fun deltas =>
        { m with workers := m.workers.set i { w with replies := w.replies.eraseIdx reply }
          }.onWorkerMessage codec (deltas.map fun (x, bitmap) => (x, some bitmap))

def step (m : TileManager ι) : Event → Option (TileManager ι)
  | .beginTransaction => some m.beginTransaction
  | .endTransaction callback => some (m.endTransaction codec callback)
  | .onTileMsg coords distance wireId img => some (m.onTileMsg coords distance wireId img)
  | .createTile coords => some (m.createTile coords)
  | .makeTileCurrent key => some (m.makeTileCurrent key)
  | .updateAllTileDistances distance => some (m.updateAllTileDistances distance)
  | .garbageCollect discardAll => some (m.garbageCollect discardAll)
  | .reclaimTileBitmapMemory key => some (m.reclaimTileBitmapMemory key)
  | .reclaimGraphicsMemory => some m.reclaimGraphicsMemory
  | .rehydrateTile key => some (m.rehydrateTile key false)
  | .rehydrateCurrentTile => some m.rehydrateCurrentTile
  | .tileReady coords => some (m.tileReady coords)
  | .removeTile key => some (m.removeTile key)
  | .removeAllTiles => some m.removeAllTiles
  | .invalidateTile key wireId => some (m.invalidateTile key wireId)
  | .refreshTilesInBackground =>
      some { m with tiles := m.tiles.mapValues fun t => t.forceKeyframe 0 }
  | .workerHandles i => m.workerHandles codec i
  | .workerReply i reply => m.workerReply codec i reply
  | .workerError i =>
      if m.workers[i]?.any fun w => 0 < w.errors then some m.disableWorkers else none
  | .bitmapsReady promise =>
      m.bitmapPromises[promise]?.map fun deltas =>
        { m with bitmapPromises := m.bitmapPromises.eraseIdx promise
          }.endTransactionHandleBitmaps deltas

end TileManager

end CoolOnline.Browser
