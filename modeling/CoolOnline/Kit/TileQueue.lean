import CoolOnline.Wsd.TileDesc
import CoolOnline.Library.SortedList
import CoolOnline.Library.History
import CoolOnline.Kit.Callbacks
import Mathlib.Data.List.Lex

/-! # Tile queues

The queues of tile requests of `kit/KitQueue.cpp`, one for each view, and how a combined tile is
taken out of them: no tile is lost or taken twice.
-/

namespace CoolOnline.Kit

open SortedList TileDesc

abbrev TileQueues := List (Int × List TileDesc)

def sortedInsert (tileQueue : List TileDesc) (tile : TileDesc) : List TileDesc :=
  SortedList.insert TileDesc.key tileQueue tile

/-- What is done to the queue that `ensureTileQueue` returns. -/
def onTileQueue (viewid : Int) (f : List TileDesc → List TileDesc) : TileQueues → TileQueues
  | [] => [(viewid, f [])]
  | (v, tileQueue) :: rest =>
      if v = viewid then (v, f tileQueue) :: rest else (v, tileQueue) :: onTileQueue viewid f rest

/-- A tile that cannot be parsed throws. -/
def pushTileQueue (queues : TileQueues) (value : Payload) : Option TileQueues :=
  (TileDesc.parse value).map fun desc =>
    onTileQueue desc.canonicalViewId (fun tileQueue => sortedInsert tileQueue desc) queues

def pushTileCombineRequest (queues : TileQueues) (value : Payload) : Option TileQueues :=
  (TileCombined.parse value).map fun tileCombined =>
    onTileQueue tileCombined.canonicalViewId
      (fun tileQueue => tileCombined.tiles.foldl sortedInsert tileQueue) queues

/-! ## Combining tiles -/

def allowCombine (a b : TileDesc) : Bool :=
  !a.isPreview && !b.isPreview && a.sameTileCombineParams b

def allowCombineIfRow (prioTile : TileDesc) (tilePosY : Int) (candidate : TileDesc) : Bool :=
  tilePosY == candidate.tilePosY && allowCombine prioTile candidate

def maxCombinedGridSpan : Int := 16

def gridX (tile : TileDesc) (tileWidth : Int) : Int := tile.tilePosX / tileWidth

/-- The state of `combineHoriAround`: the tiles left of those taken, the nearest first, the tiles
right of them, and the span and the tiles taken. -/
structure HoriScan where
  left : List TileDesc
  right : List TileDesc
  leftGridX : Int
  rightGridX : Int
  destTiles : List TileDesc

inductive HoriMove where
  | stop
  | takeLeft (leftGridX : Int)
  | takeRight (rightGridX : Int)

/-- The choice of one round. Where there is no candidate its distance is `INT_MAX`. -/
def horiMove (prioTile : TileDesc) (s : HoriScan) : HoriMove :=
  let prioGridPos := gridX prioTile prioTile.tileWidth
  let left := s.left.head?.filter (allowCombineIfRow prioTile prioTile.tilePosY)
  let right := s.right.head?.filter (allowCombineIfRow prioTile prioTile.tilePosY)
  let leftProposedGridX := (left.map fun t => gridX t prioTile.tileWidth).getD s.leftGridX
  let leftGridDistance := (left.map fun t => prioGridPos - gridX t prioTile.tileWidth).getD intMax
  let rightProposedGridX := (right.map fun t => gridX t prioTile.tileWidth).getD s.rightGridX
  let rightGridDistance := (right.map fun t => gridX t prioTile.tileWidth - prioGridPos).getD intMax
  if left.isNone ∧ right.isNone then .stop
  else if leftGridDistance < rightGridDistance then
    if s.rightGridX - leftProposedGridX ≥ maxCombinedGridSpan then .stop
    else .takeLeft leftProposedGridX
  else
    if rightProposedGridX - s.leftGridX ≥ maxCombinedGridSpan then .stop
    else .takeRight rightProposedGridX

/-- The loop of `combineHoriAround`; there are no more rounds than tiles. It fails where it reads
past an end of the queue. -/
def horiScan (prioTile : TileDesc) : Nat → HoriScan → Option HoriScan
  | 0, s => some s
  | rounds + 1, s =>
      match horiMove prioTile s, s.left, s.right with
      | .stop, _, _ => some s
      | .takeLeft leftGridX, tile :: left, _ =>
          horiScan prioTile rounds
            { s with
              left := left
              leftGridX := leftGridX
              destTiles := sortedInsert s.destTiles tile }
      | .takeRight rightGridX, _, tile :: right =>
          horiScan prioTile rounds
            { s with
              right := right
              rightGridX := rightGridX
              destTiles := sortedInsert s.destTiles tile }
      | .takeLeft _, [], _ => none
      | .takeRight _, _, [] => none

/-- The tiles around a tile, from the queue before it and after it. -/
def combineHoriAround (prioTile : TileDesc) (before after : List TileDesc) : Option HoriScan :=
  let prioGridPos := gridX prioTile prioTile.tileWidth
  horiScan prioTile (before.length + after.length)
    ⟨before.reverse, after, prioGridPos, prioGridPos, [prioTile]⟩

/-- The loop of `combineVerticalTiles` from the lower bound on: the tiles that stay in the queue
and those taken. -/
def takeRow (prioTile : TileDesc) (tilePosY leftGridX rightGridX : Int) :
    List TileDesc → List TileDesc → List TileDesc × List TileDesc
  | [], destTiles => ([], destTiles)
  | tile :: rest, destTiles =>
      if allowCombineIfRow prioTile tilePosY tile then
        if gridX tile tile.tileWidth ≥ leftGridX ∧ gridX tile tile.tileWidth ≤ rightGridX then
          takeRow prioTile tilePosY leftGridX rightGridX rest (sortedInsert destTiles tile)
        else
          let (left, taken) := takeRow prioTile tilePosY leftGridX rightGridX rest destTiles
          (tile :: left, taken)
      else (tile :: rest, destTiles)

/-- The row below or above, from the place of the leftmost column on. -/
def combineVerticalTiles (tileQueue destTiles : List TileDesc) (prioTile : TileDesc)
    (leftGridX rightGridX vertDirection : Int) : List TileDesc × List TileDesc :=
  let tilePosX := toInt32 (leftGridX * prioTile.tileWidth)
  let tilePosY := toInt32 (prioTile.tilePosY + prioTile.tileHeight * vertDirection)
  let anchor := prioTile.keyAt tilePosX tilePosY
  let (left, taken) := takeRow prioTile tilePosY leftGridX rightGridX
    (atLeast TileDesc.key anchor tileQueue) destTiles
  (before TileDesc.key anchor tileQueue ++ left, taken)

/-- The columns to look at in the neighbouring rows. -/
def expandSpan (leftGridX rightGridX : Int) : Int × Int :=
  let gridSpan := rightGridX - leftGridX
  if gridSpan < maxCombinedGridSpan then
    let availSpans := maxCombinedGridSpan - gridSpan
    let leftExpand := min leftGridX (availSpans / 2)
    (leftGridX - leftExpand, toInt32 (rightGridX + (availSpans - leftExpand)))
  else (leftGridX, rightGridX)

/-! ## Taking a combined tile -/

/-- The first tile of the highest priority, with the tiles before and after it and the priority. -/
structure Prioritized where
  before : List TileDesc
  tile : TileDesc
  after : List TileDesc
  priority : Int

def Prioritized.queue (p : Prioritized) : List TileDesc := p.before ++ p.tile :: p.after

/-- The loop over the tiles: those that were passed, and the one of the highest priority so far. -/
def prioritize (getTilePriority : TileDesc → Int) (p : Prioritized) : List TileDesc → Prioritized
  | [] => p
  | tile :: rest =>
      if getTilePriority tile > p.priority then
        prioritize getTilePriority ⟨p.queue, tile, [], getTilePriority tile⟩ rest
      else prioritize getTilePriority { p with after := p.after ++ [tile] } rest

def prioritized (getTilePriority : TileDesc → Int) : List TileDesc → Option Prioritized
  | [] => none
  | first :: rest =>
      some (prioritize getTilePriority ⟨[], first, [], getTilePriority first⟩ rest)

/-- The tiles around the prioritized one that are rendered together, and the queue without them. -/
def combineTiles (p : Prioritized) : Option (List TileDesc × List TileDesc) :=
  if p.tile.isPreview then some ([p.tile], p.before ++ p.after)
  else
    (combineHoriAround p.tile p.before p.after).map fun s =>
      let (leftGridX, rightGridX) := expandSpan s.leftGridX s.rightGridX
      let (tileQueue, tiles) := combineVerticalTiles (s.left.reverse ++ s.right) s.destTiles p.tile
        leftGridX rightGridX (-1)
      let (tileQueue, tiles) := combineVerticalTiles tileQueue tiles p.tile
        leftGridX rightGridX 1
      (tiles, tileQueue)

/-- What is rendered next, its priority and what is left in the queue or the queues. -/
structure Popped (α : Type) where
  combined : TileCombined
  priority : Int
  left : α

def toCombined : List TileDesc → Option TileCombined
  | [tile] => some (TileCombined.ofTile tile)
  | tiles => TileCombined.create tiles

def popTileQueue (getTilePriority : TileDesc → Int) (tileQueue : List TileDesc) :
    Option (Popped (List TileDesc)) :=
  (prioritized getTilePriority tileQueue).bind fun p =>
  (combineTiles p).bind fun (tiles, left) =>
  (toCombined tiles).map fun combined => ⟨combined, p.priority, left⟩

/-- The queues to pop from: those of the least inactive view that has tiles, else any with
tiles. -/
def isChosen (viewIdsByPrio : List Int) (queues : TileQueues) (queue : Int × List TileDesc) :
    Bool :=
  let hasTiles (viewId : Int) := queues.any fun q => q.1 == viewId && !q.2.isEmpty
  match viewIdsByPrio.find? hasTiles with
  | some viewId => queue.1 == viewId && !queue.2.isEmpty
  | none => !queue.2.isEmpty

/-- Popping from the first of the chosen queues. -/
def popFrom (getTilePriority : TileDesc → Int) (chosen : Int × List TileDesc → Bool) :
    TileQueues → Option (Popped TileQueues)
  | [] => none
  | (viewId, tileQueue) :: rest =>
      if chosen (viewId, tileQueue) then
        (popTileQueue getTilePriority tileQueue).map fun popped =>
          ⟨popped.combined, popped.priority, (viewId, popped.left) :: rest⟩
      else
        (popFrom getTilePriority chosen rest).map fun popped =>
          { popped with left := (viewId, tileQueue) :: popped.left }

namespace TileQueues

def isTileQueueEmpty (queues : TileQueues) : Bool := queues.all fun queue => queue.2.isEmpty

/-- `KitQueue::popTileQueue`, which asserts that there are tiles. -/
def pop (getTilePriority : TileDesc → Int) (viewIdsByInactivity : List Int) (queues : TileQueues) :
    Option (Popped TileQueues) :=
  if queues.isTileQueueEmpty then none
  else popFrom getTilePriority (isChosen viewIdsByInactivity queues) queues

end TileQueues

/-! ## The tile of the highest priority -/

section Prioritize

variable {getTilePriority : TileDesc → Int}

/-- The priority is the tile's, and no tile passed has a higher one. -/
structure Prioritized.IsHighest (getTilePriority : TileDesc → Int) (p : Prioritized) : Prop where
  priority : p.priority = getTilePriority p.tile
  highest : ∀ t ∈ p.queue, getTilePriority t ≤ p.priority

theorem prioritize_spec {p : Prioritized} (rest : List TileDesc)
    (h : p.IsHighest getTilePriority) :
    (prioritize getTilePriority p rest).queue = p.queue ++ rest ∧
      (prioritize getTilePriority p rest).IsHighest getTilePriority := by
  induction rest generalizing p with
  | nil => exact ⟨by simp [prioritize], h⟩
  | cons tile rest ih =>
      by_cases hhigher : getTilePriority tile > p.priority
      · have hnext : (⟨p.queue, tile, [], getTilePriority tile⟩ : Prioritized).IsHighest
            getTilePriority := by
          refine ⟨rfl, fun t ht => ?_⟩
          rcases List.mem_append.mp ht with ht | ht
          · exact (h.highest t ht).trans (le_of_lt hhigher)
          · rw [List.mem_singleton.mp ht]
        obtain ⟨hqueue, hhighest⟩ := ih hnext
        simp only [prioritize, hhigher, if_true]
        exact ⟨by simpa [Prioritized.queue] using hqueue, hhighest⟩
      · have hnext : ({ p with after := p.after ++ [tile] } : Prioritized).IsHighest
            getTilePriority := by
          refine ⟨h.priority, fun t ht => ?_⟩
          have hmem : t ∈ p.queue ∨ t = tile := by
            simpa [Prioritized.queue, or_assoc] using ht
          rcases hmem with hmem | rfl
          · exact h.highest t hmem
          · exact not_lt.mp hhigher
        obtain ⟨hqueue, hhighest⟩ := ih hnext
        simp only [prioritize, hhigher, if_false]
        exact ⟨by simpa [Prioritized.queue] using hqueue, hhighest⟩

theorem prioritized_spec (getTilePriority : TileDesc → Int) {tileQueue : List TileDesc} (hne : tileQueue ≠ []) :
    ∃ p, prioritized getTilePriority tileQueue = some p ∧ p.queue = tileQueue ∧
      p.IsHighest getTilePriority := by
  obtain ⟨first, rest, rfl⟩ := List.exists_cons_of_ne_nil hne
  have hfirst : (⟨[], first, [], getTilePriority first⟩ : Prioritized).IsHighest
      getTilePriority := by
    refine ⟨rfl, fun t ht => ?_⟩
    rw [List.mem_singleton.mp ht]
  obtain ⟨hqueue, hhighest⟩ := prioritize_spec rest hfirst
  exact ⟨_, rfl, by simpa [Prioritized.queue] using hqueue, hhighest⟩

end Prioritize

/-! ## Tiles of a row -/

section Row

variable {prioTile a b t : TileDesc}

/-- A queued tile: what a message can ask for. -/
structure Queued (t : TileDesc) : Prop where
  wellFormed : t.WellFormed
  id : -1 ≤ t.id

theorem Queued.valid (h : Queued t) : 0 ≤ t.tilePosX ∧ t.tilePosX ≤ intMax ∧ 0 < t.tileWidth := by
  have hvalid := h.wellFormed.valid
  have hx := h.wellFormed.tilePosX.2
  simp only [TileDesc.isValid, Bool.and_eq_true, decide_eq_true_eq] at hvalid
  simp only [intMax]
  omega

theorem allowCombine_iff : allowCombine prioTile t = true ↔
    prioTile.id < 0 ∧ t.id < 0 ∧ prioTile.sameTileCombineParams t = true := by
  simp [allowCombine, TileDesc.isPreview, and_assoc]

theorem sameTileCombineParams_refl (t : TileDesc) : t.sameTileCombineParams t = true := by
  simp [TileDesc.sameTileCombineParams]

/-- Two tiles with the parameters of a third have the same ones. -/
theorem sameTileCombineParams_trans (ha : prioTile.sameTileCombineParams a = true)
    (hb : prioTile.sameTileCombineParams b = true) : a.sameTileCombineParams b = true := by
  simp only [TileDesc.sameTileCombineParams, Bool.and_eq_true, beq_iff_eq] at *
  omega

/-- A tile that combines with another has its key but for the position. -/
theorem key_of_allowCombine (hprio : Queued prioTile) (ht : Queued t)
    (h : allowCombine prioTile t = true) : t.key = prioTile.keyAt t.tilePosX t.tilePosY := by
  obtain ⟨hid, hid', hsame⟩ := allowCombine_iff.mp h
  have hlo := hprio.id
  have hlo' := ht.id
  have heq : t.id = prioTile.id := by omega
  simp only [TileDesc.sameTileCombineParams, Bool.and_eq_true, beq_iff_eq] at hsame
  simp [TileDesc.key, TileDesc.keyAt, hsame, heq]

theorem keyAt_lt {x x' y : Int} (h : t.keyAt x y < t.keyAt x' y) : x < x' := by
  simpa [TileDesc.keyAt, List.cons_lt_cons_iff] using h

/-- The row of a tile that is not a preview. -/
def InRow (prioTile t : TileDesc) : Prop :=
  t = prioTile ∨ allowCombineIfRow prioTile prioTile.tilePosY t = true

theorem InRow.sameTileCombineParams (h : InRow prioTile t) :
    prioTile.sameTileCombineParams t = true := by
  rcases h with rfl | h
  · exact sameTileCombineParams_refl t
  · simp only [allowCombineIfRow, Bool.and_eq_true] at h
    exact (allowCombine_iff.mp h.2).2.2

/-- The order of the queue is the order of the columns in a row. -/
theorem InRow.tilePosX_lt (hprio : Queued prioTile) (ha : Queued a) (hb : Queued b)
    (hrow : InRow prioTile a) (hrow' : InRow prioTile b) (h : a.key < b.key) :
    a.tilePosX < b.tilePosX := by
  have hkey {t : TileDesc} (ht : Queued t) (hrow : InRow prioTile t) :
      t.key = prioTile.keyAt t.tilePosX prioTile.tilePosY := by
    rcases hrow with rfl | hrow
    · rfl
    · simp only [allowCombineIfRow, Bool.and_eq_true, beq_iff_eq] at hrow
      rw [key_of_allowCombine hprio ht hrow.2, hrow.1]
  rw [hkey ha hrow, hkey hb hrow'] at h
  exact keyAt_lt h

theorem gridX_mono {w : Int} (hw : 0 < w) (h : a.tilePosX ≤ b.tilePosX) : gridX a w ≤ gridX b w :=
  Int.ediv_le_ediv hw h

end Row

/-! ## Taking tiles -/

section Take

variable {prioTile tile : TileDesc} {queue dest queue' dest' queue'' dest'' : List TileDesc}

theorem sortedInsert_perm (h : ((dest ++ tile :: queue).map TileDesc.key).Nodup) :
    (sortedInsert dest tile).Perm (tile :: dest) := by
  apply SortedList.insert_perm
  intro b hb
  rw [List.map_append, List.map_cons] at h
  exact (List.nodup_append.mp h).2.2 _ (List.mem_map_of_mem hb) _ (by simp)

/-- Tiles move from the queue to the tiles taken: none is lost, and those that move combine with
the priority tile. -/
structure Moves (prioTile : TileDesc) (queue dest queue' dest' : List TileDesc) : Prop where
  perm : (dest ++ queue).Perm (dest' ++ queue')
  sublist : queue'.Sublist queue
  kept : ∀ t ∈ dest, t ∈ dest'
  taken : ∀ t ∈ dest', t ∈ dest ∨ allowCombine prioTile t = true

theorem Moves.refl (prioTile : TileDesc) (queue dest : List TileDesc) :
    Moves prioTile queue dest queue dest :=
  ⟨List.Perm.refl _, List.Sublist.refl _, fun _ h => h, fun _ h => Or.inl h⟩

theorem Moves.trans (h : Moves prioTile queue dest queue' dest')
    (h' : Moves prioTile queue' dest' queue'' dest'') :
    Moves prioTile queue dest queue'' dest'' := by
  refine ⟨h.perm.trans h'.perm, h'.sublist.trans h.sublist, fun t ht => h'.kept t (h.kept t ht),
    fun t ht => ?_⟩
  rcases h'.taken t ht with ht | ht
  · exact h.taken t ht
  · exact Or.inr ht

theorem Moves.nodup (h : Moves prioTile queue dest queue' dest')
    (hkeys : ((dest ++ queue).map TileDesc.key).Nodup) :
    ((dest' ++ queue').map TileDesc.key).Nodup :=
  (h.perm.map TileDesc.key).nodup_iff.mp hkeys

/-- The next tile is taken. -/
theorem Moves.take (hkeys : ((dest ++ tile :: queue).map TileDesc.key).Nodup)
    (hcombine : allowCombine prioTile tile = true) :
    Moves prioTile (tile :: queue) dest queue (sortedInsert dest tile) := by
  have hperm := sortedInsert_perm hkeys
  refine ⟨?_, List.sublist_cons_self _ _, fun t ht => hperm.mem_iff.mpr (by simp [ht]),
    fun t ht => ?_⟩
  · exact List.perm_middle.trans (hperm.symm.append_right queue)
  · rcases List.mem_cons.mp (hperm.mem_iff.mp ht) with rfl | ht
    · exact Or.inr hcombine
    · exact Or.inl ht

/-- The tiles before the moves stay. -/
theorem Moves.append_left (front : List TileDesc) (h : Moves prioTile queue dest queue' dest') :
    Moves prioTile (front ++ queue) dest (front ++ queue') dest' := by
  refine ⟨?_, h.sublist.append_left front, h.kept, h.taken⟩
  have hfront (d q : List TileDesc) : (d ++ (front ++ q)).Perm (front ++ (d ++ q)) := by
    rw [← List.append_assoc, ← List.append_assoc]
    exact List.perm_append_comm.append_right q
  exact (hfront dest queue).trans ((h.perm.append_left front).trans (hfront dest' queue').symm)

theorem takeRow_moves (prioTile : TileDesc) (tilePosY leftGridX rightGridX : Int)
    (hkeys : ((dest ++ queue).map TileDesc.key).Nodup) :
    Moves prioTile queue dest (takeRow prioTile tilePosY leftGridX rightGridX queue dest).1
      (takeRow prioTile tilePosY leftGridX rightGridX queue dest).2 := by
  induction queue generalizing dest with
  | nil => exact Moves.refl _ _ _
  | cons tile rest ih =>
      simp only [takeRow]
      split
      · next hrow =>
          simp only [allowCombineIfRow, Bool.and_eq_true] at hrow
          split
          · have htake := Moves.take hkeys hrow.2
            exact htake.trans (ih (htake.nodup hkeys))
          · have hrest : ((dest ++ rest).map TileDesc.key).Nodup := by
              apply List.Nodup.sublist _ hkeys
              exact ((List.sublist_cons_self tile rest).append_left dest).map _
            exact (ih hrest).append_left [tile]
      · exact Moves.refl _ _ _

theorem combineVerticalTiles_moves (prioTile : TileDesc) (leftGridX rightGridX vertDirection : Int)
    (hkeys : ((dest ++ queue).map TileDesc.key).Nodup) :
    Moves prioTile queue dest
      (combineVerticalTiles queue dest prioTile leftGridX rightGridX vertDirection).1
      (combineVerticalTiles queue dest prioTile leftGridX rightGridX vertDirection).2 := by
  simp only [combineVerticalTiles]
  generalize prioTile.keyAt (toInt32 (leftGridX * prioTile.tileWidth))
    (toInt32 (prioTile.tilePosY + prioTile.tileHeight * vertDirection)) = anchor
  have hsplit := before_append_atLeast TileDesc.key anchor queue
  have hrest : ((dest ++ atLeast TileDesc.key anchor queue).map TileDesc.key).Nodup := by
    apply List.Nodup.sublist _ hkeys
    apply List.Sublist.map
    apply List.Sublist.append_left
    exact List.dropWhile_sublist _
  have hmoves := (takeRow_moves prioTile
    (toInt32 (prioTile.tilePosY + prioTile.tileHeight * vertDirection)) leftGridX rightGridX
    hrest).append_left (before TileDesc.key anchor queue)
  rw [hsplit] at hmoves
  exact hmoves

end Take

/-! ## The scan of a row -/

/-- The priority tile is in the last column there is and a tile of its row in the first one, with
no tile in between that is out of reach: the distance is that of a missing candidate. -/
def overruns (p : Prioritized) : Bool :=
  let inRow (t : TileDesc) := allowCombineIfRow p.tile p.tile.tilePosY t
  let column (t : TileDesc) := gridX t p.tile.tileWidth
  column p.tile == intMax && (p.queue.any fun t => inRow t && column t == 0) &&
    p.queue.all fun t => !inRow t || column t == 0 || intMax - column t < maxCombinedGridSpan

section Scan

variable {prioTile : TileDesc} {s : HoriScan} {taken : List TileDesc}

/-- Where no distance is that of a missing candidate, a candidate is taken or none. -/
theorem horiMove_cases
    (hright : ∀ t ∈ s.right,
      gridX t prioTile.tileWidth - gridX prioTile prioTile.tileWidth ≤ intMax)
    (hleft : ∀ t ∈ s.left.head?, allowCombineIfRow prioTile prioTile.tilePosY t = true →
      gridX prioTile prioTile.tileWidth - gridX t prioTile.tileWidth < intMax ∨
        maxCombinedGridSpan ≤ s.rightGridX - s.leftGridX) :
    horiMove prioTile s = .stop ∨
      (∃ tile left, s.left = tile :: left ∧
        allowCombineIfRow prioTile prioTile.tilePosY tile = true ∧
        horiMove prioTile s = .takeLeft (gridX tile prioTile.tileWidth)) ∨
      ∃ tile right, s.right = tile :: right ∧
        allowCombineIfRow prioTile prioTile.tilePosY tile = true ∧
        horiMove prioTile s = .takeRight (gridX tile prioTile.tileWidth) := by
  have hhead {l : List TileDesc} {tile : TileDesc}
      (h : l.head?.filter (allowCombineIfRow prioTile prioTile.tilePosY) = some tile) :
      ∃ rest, l = tile :: rest ∧ allowCombineIfRow prioTile prioTile.tilePosY tile = true := by
    obtain ⟨htile, hrow⟩ := Option.filter_eq_some_iff.mp h
    obtain ⟨rest, rfl⟩ := List.head?_eq_some_iff.mp htile
    exact ⟨rest, rfl, hrow⟩
  simp only [horiMove]
  cases hl : s.left.head?.filter (allowCombineIfRow prioTile prioTile.tilePosY) with
  | none =>
      cases hr : s.right.head?.filter (allowCombineIfRow prioTile prioTile.tilePosY) with
      | none => simp
      | some tile =>
          obtain ⟨right, hcons, hrow⟩ := hhead hr
          have hdistance := hright tile (by simp [hcons])
          simp only [Option.map_none, Option.map_some, Option.getD_none, Option.getD_some,
            Option.isNone_none, Option.isNone_some, Bool.false_eq_true, and_false, if_false]
          rw [if_neg (by omega)]
          split
          · exact Or.inl rfl
          · exact Or.inr (Or.inr ⟨tile, right, hcons, hrow, rfl⟩)
  | some tile =>
      obtain ⟨left, hcons, hrow⟩ := hhead hl
      have hreach := hleft tile (by simp [hcons]) hrow
      simp only [Option.map_some, Option.getD_some, Option.isNone_some, Bool.false_eq_true,
        false_and, if_false]
      split
      · split
        · exact Or.inl rfl
        · exact Or.inr (Or.inl ⟨tile, left, hcons, hrow, rfl⟩)
      · next hfar =>
          split
          · exact Or.inl rfl
          · next hspan =>
              cases hr : s.right.head?.filter (allowCombineIfRow prioTile prioTile.tilePosY) with
              | none =>
                  simp only [hr, Option.map_none, Option.getD_none] at hfar hspan
                  omega
              | some tile' =>
                  obtain ⟨right, hcons', hrow'⟩ := hhead hr
                  exact Or.inr (Or.inr ⟨tile', right, hcons', hrow', rfl⟩)

/-- The tiles taken stand between those that are left, in the row of the priority tile. -/
structure Scanned (prioTile : TileDesc) (tileQueue : List TileDesc) (s : HoriScan)
    (taken : List TileDesc) : Prop where
  queue : tileQueue = s.left.reverse ++ (taken ++ s.right)
  perm : s.destTiles.Perm taken
  prio : prioTile ∈ taken
  row : ∀ t ∈ taken, InRow prioTile t
  rightGridX : gridX prioTile prioTile.tileWidth ≤ s.rightGridX
  leftGridX : ∀ t ∈ taken, s.leftGridX ≤ gridX t prioTile.tileWidth

/-- A sorted queue of tiles that were asked for. -/
structure Sorted (tileQueue : List TileDesc) : Prop where
  strict : Strict TileDesc.key tileQueue
  queued : ∀ t ∈ tileQueue, Queued t

theorem Sorted.nodup {tileQueue : List TileDesc} (h : Sorted tileQueue) :
    (tileQueue.map TileDesc.key).Nodup := by
  have hne : tileQueue.Pairwise fun a b => a.key ≠ b.key := h.strict.imp fun hlt => ne_of_lt hlt
  exact List.pairwise_map.mpr hne

theorem Sorted.sublist {tileQueue left : List TileDesc} (h : Sorted tileQueue)
    (hsub : left.Sublist tileQueue) : Sorted left :=
  ⟨h.strict.sublist hsub, fun t ht => h.queued t (hsub.subset ht)⟩

theorem sorted_nil : Sorted [] := ⟨List.Pairwise.nil, by simp⟩

theorem Sorted.insert {tileQueue : List TileDesc} (h : Sorted tileQueue) {tile : TileDesc}
    (htile : Queued tile) : Sorted (sortedInsert tileQueue tile) := by
  refine ⟨h.strict.insert tile, fun t ht => ?_⟩
  rcases SortedList.mem_insert ht with rfl | ht
  · exact htile
  · exact h.queued t ht

theorem Sorted.foldl {tiles tileQueue : List TileDesc} (h : Sorted tileQueue)
    (htiles : ∀ t ∈ tiles, Queued t) : Sorted (tiles.foldl sortedInsert tileQueue) := by
  induction tiles generalizing tileQueue with
  | nil => exact h
  | cons tile tiles ih =>
      exact ih (h.insert (htiles tile (by simp))) fun t ht => htiles t (by simp [ht])

variable {p : Prioritized}

theorem Prioritized.tile_mem (p : Prioritized) : p.tile ∈ p.queue := by
  simp [Prioritized.queue]

theorem gridX_bounds {w : Int} {t : TileDesc} (ht : Queued t) (hw : 0 < w) :
    0 ≤ gridX t w ∧ gridX t w ≤ intMax := by
  obtain ⟨hlo, hhi, -⟩ := ht.valid
  exact ⟨Int.ediv_nonneg hlo hw.le, (Int.ediv_le_self w hlo).trans hhi⟩

/-- The candidates to the left are in reach. -/
theorem Scanned.left_inReach (hsorted : Sorted p.queue) (hover : overruns p = false)
    (h : Scanned p.tile p.queue s taken) {t : TileDesc} (ht : t ∈ s.left.head?)
    (hrow : allowCombineIfRow p.tile p.tile.tilePosY t = true) :
    gridX p.tile p.tile.tileWidth - gridX t p.tile.tileWidth < intMax ∨
      maxCombinedGridSpan ≤ s.rightGridX - s.leftGridX := by
  obtain ⟨left, hleft⟩ := List.head?_eq_some_iff.mp ht
  have hprio := hsorted.queued _ p.tile_mem
  have hw := hprio.valid.2.2
  have hqueue : p.queue = left.reverse ++ (t :: (taken ++ s.right)) := by
    rw [h.queue, hleft]
    simp
  have hmem : t ∈ p.queue := by simp [hqueue]
  obtain ⟨hlo, -⟩ := gridX_bounds (hsorted.queued t hmem) hw
  obtain ⟨-, hhi⟩ := gridX_bounds hprio hw
  by_contra hfar
  rw [not_or] at hfar
  obtain ⟨hdistance, hspan⟩ := hfar
  have hright := h.rightGridX
  have hcolumn : gridX p.tile p.tile.tileWidth = intMax := by omega
  have hzero : gridX t p.tile.tileWidth = 0 := by omega
  -- What is in the row lies in the first column, among those taken or right of them.
  have hall : ∀ u ∈ p.queue, allowCombineIfRow p.tile p.tile.tilePosY u = true →
      gridX u p.tile.tileWidth = 0 ∨
        intMax - gridX u p.tile.tileWidth < maxCombinedGridSpan := by
    intro u hu hurow
    obtain ⟨hulo, -⟩ := gridX_bounds (hsorted.queued u hu) hw
    have hstrict := hsorted.strict
    rw [hqueue, Strict, List.pairwise_append, List.pairwise_cons, List.pairwise_append] at hstrict
    obtain ⟨-, ⟨-, -, -, hcross⟩, hbefore⟩ := hstrict
    have hcases : u ∈ left ∨ u = t ∨ u ∈ taken ∨ u ∈ s.right := by
      simpa [hqueue] using hu
    rcases hcases with hcase | rfl | hcase | hcase
    · have hlt := hbefore u (by simpa using hcase) t (by simp)
      have hx := InRow.tilePosX_lt hprio (hsorted.queued u hu) (hsorted.queued t hmem)
        (Or.inr hurow) (Or.inr hrow) hlt
      have hmono := gridX_mono hw hx.le
      omega
    · exact Or.inl hzero
    · have hbound := h.leftGridX u hcase
      omega
    · have hlt := hcross p.tile h.prio u hcase
      have hx := InRow.tilePosX_lt hprio hprio (hsorted.queued u hu) (Or.inl rfl) (Or.inr hurow)
        hlt
      have hmono := gridX_mono hw hx.le
      simp only [maxCombinedGridSpan]
      omega
  have htrue : overruns p = true := by
    simp only [overruns, Bool.and_eq_true, beq_iff_eq, List.any_eq_true, List.all_eq_true,
      Bool.or_eq_true, Bool.not_eq_true', decide_eq_true_eq]
    refine ⟨⟨hcolumn, t, hmem, hrow, hzero⟩, fun u hu => ?_⟩
    cases hurow : allowCombineIfRow p.tile p.tile.tilePosY u with
    | false => exact Or.inl (Or.inl rfl)
    | true =>
        rcases hall u hu hurow with hcase | hcase
        · exact Or.inl (Or.inr hcase)
        · exact Or.inr hcase
  rw [htrue] at hover
  cases hover

/-- The tiles of the queue are those taken and those that are left. -/
theorem Scanned.perm_split (h : Scanned p.tile p.queue s taken) :
    p.queue.Perm (s.destTiles ++ (s.left.reverse ++ s.right)) := by
  have hcomm : (s.left.reverse ++ (taken ++ s.right)).Perm
      (taken ++ (s.left.reverse ++ s.right)) := by
    rw [← List.append_assoc, ← List.append_assoc]
    exact List.perm_append_comm.append_right s.right
  rw [h.queue]
  exact hcomm.trans (h.perm.symm.append_right _)

theorem Scanned.sublist_rest (h : Scanned p.tile p.queue s taken) :
    (s.left.reverse ++ s.right).Sublist p.queue := by
  rw [h.queue]
  exact (List.sublist_append_right taken s.right).append_left _

theorem Scanned.nodup_split (hsorted : Sorted p.queue) (h : Scanned p.tile p.queue s taken) :
    ((s.destTiles ++ (s.left.reverse ++ s.right)).map TileDesc.key).Nodup :=
  (h.perm_split.map TileDesc.key).nodup_iff.mp hsorted.nodup

/-- A tile of the queue is put among those taken. -/
theorem Scanned.insert_perm (hsorted : Sorted p.queue)
    (h : Scanned p.tile p.queue s taken) {tile : TileDesc} {rest : List TileDesc}
    (hrest : p.queue.Perm (tile :: (taken ++ rest))) :
    (sortedInsert s.destTiles tile).Perm (tile :: taken) := by
  have hkeys : ((s.destTiles ++ [tile]).map TileDesc.key).Nodup := by
    have hall : (p.queue.map TileDesc.key).Perm ((tile :: (taken ++ rest)).map TileDesc.key) :=
      hrest.map _
    have hnodup := hall.nodup_iff.mp hsorted.nodup
    have htaken : ((tile :: taken).map TileDesc.key).Nodup := by
      apply List.Nodup.sublist _ hnodup
      exact ((List.sublist_append_left taken rest).cons_cons tile).map _
    have hperm : (s.destTiles ++ [tile]).Perm (tile :: taken) :=
      (h.perm.append_right [tile]).trans List.perm_append_comm
    exact (hperm.map TileDesc.key).nodup_iff.mpr htaken
  exact (sortedInsert_perm hkeys).trans (h.perm.cons tile)

theorem Scanned.takeLeft (hsorted : Sorted p.queue) (h : Scanned p.tile p.queue s taken)
    {tile : TileDesc} {left : List TileDesc} (hcons : s.left = tile :: left)
    (hrow : allowCombineIfRow p.tile p.tile.tilePosY tile = true) :
    Scanned p.tile p.queue
      { s with
        left := left
        leftGridX := gridX tile p.tile.tileWidth
        destTiles := sortedInsert s.destTiles tile } (tile :: taken) := by
  have hqueue : p.queue = left.reverse ++ (tile :: taken ++ s.right) := by
    rw [h.queue, hcons]
    simp
  have hrest : p.queue.Perm (tile :: (taken ++ (left.reverse ++ s.right))) := by
    rw [hqueue, List.cons_append, ← List.append_assoc taken]
    refine List.perm_middle.trans (List.Perm.cons tile ?_)
    rw [← List.append_assoc]
    exact List.perm_append_comm.append_right s.right
  refine ⟨hqueue, h.insert_perm hsorted hrest, by simp [h.prio], ?_, h.rightGridX, ?_⟩
  · intro t ht
    rcases List.mem_cons.mp ht with rfl | ht
    · exact Or.inr hrow
    · exact h.row t ht
  · intro t ht
    rcases List.mem_cons.mp ht with rfl | ht
    · exact le_refl _
    · have hprio := hsorted.queued _ p.tile_mem
      have hstrict := hsorted.strict
      rw [hqueue, Strict, List.pairwise_append, List.cons_append, List.pairwise_cons] at hstrict
      have hlt := hstrict.2.1.1 t (by simp [ht])
      have hx := InRow.tilePosX_lt hprio (hsorted.queued tile (by simp [hqueue]))
        (hsorted.queued t (by simp [hqueue, ht])) (Or.inr hrow) (h.row t ht) hlt
      exact gridX_mono hprio.valid.2.2 hx.le

theorem Scanned.takeRight (hsorted : Sorted p.queue) (h : Scanned p.tile p.queue s taken)
    {tile : TileDesc} {right : List TileDesc} (hcons : s.right = tile :: right)
    (hrow : allowCombineIfRow p.tile p.tile.tilePosY tile = true) :
    Scanned p.tile p.queue
      { s with
        right := right
        rightGridX := gridX tile p.tile.tileWidth
        destTiles := sortedInsert s.destTiles tile } (taken ++ [tile]) := by
  have hqueue : p.queue = s.left.reverse ++ (taken ++ [tile] ++ right) := by
    rw [h.queue, hcons]
    simp
  have hrest : p.queue.Perm (tile :: (taken ++ (s.left.reverse ++ right))) := by
    rw [hqueue, List.append_assoc, List.singleton_append, ← List.append_assoc,
      ← List.append_assoc taken]
    exact List.perm_middle.trans ((List.perm_append_comm.append_right right).cons tile)
  have hprio := hsorted.queued _ p.tile_mem
  have hmono : gridX p.tile p.tile.tileWidth ≤ gridX tile p.tile.tileWidth := by
    have hstrict := hsorted.strict
    rw [hqueue, Strict, List.pairwise_append, List.append_assoc, List.pairwise_append] at hstrict
    have hlt := hstrict.2.1.2.2 _ h.prio tile (by simp)
    have hx := InRow.tilePosX_lt hprio hprio (hsorted.queued tile (by simp [hqueue]))
      (Or.inl rfl) (Or.inr hrow) hlt
    exact gridX_mono hprio.valid.2.2 hx.le
  refine ⟨hqueue, (h.insert_perm hsorted hrest).trans (List.perm_append_singleton _ _).symm,
    by simp [h.prio], ?_, hmono, ?_⟩
  · intro t ht
    rcases List.mem_append.mp ht with ht | ht
    · exact h.row t ht
    · rw [List.mem_singleton.mp ht]
      exact Or.inr hrow
  · intro t ht
    rcases List.mem_append.mp ht with ht | ht
    · exact h.leftGridX t ht
    · rw [List.mem_singleton.mp ht]
      exact (h.leftGridX _ h.prio).trans hmono

/-- The scan ends with the tiles taken between those that are left. -/
theorem horiScan_spec (hsorted : Sorted p.queue) (hover : overruns p = false) (rounds : Nat)
    (h : Scanned p.tile p.queue s taken) :
    ∃ s' taken', horiScan p.tile rounds s = some s' ∧ Scanned p.tile p.queue s' taken' := by
  induction rounds generalizing s taken with
  | zero => exact ⟨s, taken, rfl, h⟩
  | succ rounds ih =>
      have hprio := hsorted.queued _ p.tile_mem
      have hright : ∀ t ∈ s.right,
          gridX t p.tile.tileWidth - gridX p.tile p.tile.tileWidth ≤ intMax := by
        intro t ht
        have hmem : t ∈ p.queue := by simp [h.queue, ht]
        have hbounds := gridX_bounds (hsorted.queued t hmem) hprio.valid.2.2
        have hbounds' := gridX_bounds hprio hprio.valid.2.2
        omega
      rcases horiMove_cases hright fun t ht => h.left_inReach hsorted hover ht with
        hmove | ⟨tile, left, hcons, hrow, hmove⟩ | ⟨tile, right, hcons, hrow, hmove⟩
      · exact ⟨s, taken, by simp only [horiScan, hmove], h⟩
      · simp only [horiScan, hmove, hcons]
        exact ih (h.takeLeft hsorted hcons hrow)
      · simp only [horiScan, hmove, hcons]
        exact ih (h.takeRight hsorted hcons hrow)

end Scan

/-! ## Popping a combined tile -/

/-- Tiles that are rendered together with the prioritized tile, and the queue without them. -/
structure Splits (p : Prioritized) (tiles left : List TileDesc) : Prop where
  perm : p.queue.Perm (tiles ++ left)
  sublist : left.Sublist p.queue
  prio : p.tile ∈ tiles
  same : ∀ t ∈ tiles, p.tile.sameTileCombineParams t = true

/-- Around the prioritized tile no tile is lost or taken twice. -/
theorem combineTiles_spec {p : Prioritized} (hsorted : Sorted p.queue)
    (hover : overruns p = false) :
    ∃ tiles left, combineTiles p = some (tiles, left) ∧ Splits p tiles left := by
  by_cases hpreview : p.tile.isPreview = true
  · refine ⟨[p.tile], p.before ++ p.after, by simp [combineTiles, hpreview], List.perm_middle,
      (List.sublist_cons_self _ _).append_left _, List.mem_singleton_self _, fun t ht => ?_⟩
    rw [List.mem_singleton.mp ht]
    exact sameTileCombineParams_refl _
  · have hstart : Scanned p.tile p.queue ⟨p.before.reverse, p.after,
        gridX p.tile p.tile.tileWidth, gridX p.tile p.tile.tileWidth, [p.tile]⟩ [p.tile] := by
      refine ⟨by simp [Prioritized.queue], List.Perm.refl _, List.mem_singleton_self _, ?_,
        le_refl _, ?_⟩
      · intro t ht
        exact Or.inl (List.mem_singleton.mp ht)
      · intro t ht
        rw [List.mem_singleton.mp ht]
    obtain ⟨s, taken, hscan, hscanned⟩ := horiScan_spec hsorted hover
      (p.before.length + p.after.length) hstart
    have hperm := hscanned.perm_split
    have hsub := hscanned.sublist_rest
    have hkeys := hscanned.nodup_split hsorted
    generalize hspan : expandSpan s.leftGridX s.rightGridX = span
    have habove := combineVerticalTiles_moves p.tile span.1 span.2 (-1) hkeys
    have hboth := habove.trans
      (combineVerticalTiles_moves p.tile span.1 span.2 1 (habove.nodup hkeys))
    refine ⟨_, _, ?_, hperm.trans hboth.perm, hboth.sublist.trans hsub,
      hboth.kept _ (hscanned.perm.mem_iff.mpr hscanned.prio), fun t ht => ?_⟩
    · simp only [combineTiles, hpreview, Bool.false_eq_true, if_false, combineHoriAround, hscan,
        Option.map_some, hspan]
    · rcases hboth.taken t ht with hdest | hcombine
      · exact (hscanned.row t (hscanned.perm.mem_iff.mp hdest)).sameTileCombineParams
      · exact (allowCombine_iff.mp hcombine).2.2

/-- What a combined tile says of each of its tiles. -/
def place (t : TileDesc) : Int × Int × Int × Nat × Nat :=
  (t.tilePosX, t.tilePosY, t.ver, t.oldWireId, t.wireId)

/-- The combined tile is made of the tiles that left the queue, each once, and these share the
parameters of the tile of the highest priority. -/
structure Conserves (getTilePriority : TileDesc → Int) (tileQueue tiles left : List TileDesc)
    (combined : TileCombined) : Prop where
  perm : tileQueue.Perm (tiles ++ left)
  places : combined.tiles.map place = tiles.map place
  shared : ∃ prio ∈ tiles, (∀ t ∈ tileQueue, getTilePriority t ≤ getTilePriority prio) ∧
    (∀ t ∈ tiles, prio.sameTileCombineParams t = true) ∧
    ∀ t ∈ combined.tiles, prio.sameTileCombineParams t = true

theorem sameTileCombineParams_bare {prio t : TileDesc}
    (h : prio.sameTileCombineParams t = true) :
    prio.sameTileCombineParams (TileCombined.bare t) = true := h

section Pop

variable {getTilePriority : TileDesc → Int} {tileQueue : List TileDesc}

/-- The tiles taken are combined as they are. -/
theorem combined_of_splits {p : Prioritized} {tiles left : List TileDesc}
    (hsorted : Sorted p.queue) (hsplits : Splits p tiles left)
    (hp : p.IsHighest getTilePriority) :
    ∃ combined, toCombined tiles = some combined ∧
      Conserves getTilePriority p.queue tiles left combined := by
  have hhighest : ∀ t ∈ p.queue, getTilePriority t ≤ getTilePriority p.tile := by
    rw [← hp.priority]
    exact hp.highest
  match tiles, hsplits with
  | [], hsplits => exact absurd hsplits.prio (by simp)
  | [tile], hsplits =>
      refine ⟨TileCombined.ofTile tile, rfl, hsplits.perm, rfl, p.tile, hsplits.prio, hhighest,
        hsplits.same, ?_⟩
      exact hsplits.same
  | first :: second :: rest, hsplits =>
      have htiles : ∀ t ∈ first :: second :: rest,
          t.WellFormed ∧ first.sameTileCombineParams t = true := by
        intro t ht
        have hmem : t ∈ p.queue := hsplits.perm.mem_iff.mpr (List.mem_append_left left ht)
        exact ⟨(hsorted.queued t hmem).wellFormed,
          sameTileCombineParams_trans (hsplits.same first (by simp)) (hsplits.same t ht)⟩
      refine ⟨_, TileCombined.create_eq htiles, hsplits.perm, ?_, p.tile, hsplits.prio, hhighest,
        hsplits.same, ?_⟩
      · rw [List.map_map]
        rfl
      · intro t ht
        obtain ⟨t', ht', rfl⟩ := List.mem_map.mp ht
        exact sameTileCombineParams_bare (hsplits.same t' ht')

/-- The popped tiles leave the queue. -/
theorem popTileQueue_spec (hne : tileQueue ≠ []) (hsorted : Sorted tileQueue)
    (hover : (prioritized getTilePriority tileQueue).any overruns = false) :
    ∃ popped tiles, popTileQueue getTilePriority tileQueue = some popped ∧
      popped.left.Sublist tileQueue ∧
      Conserves getTilePriority tileQueue tiles popped.left popped.combined := by
  obtain ⟨p, hp, rfl, hhighest⟩ := prioritized_spec getTilePriority hne
  rw [hp] at hover
  obtain ⟨tiles, left, htiles, hsplits⟩ := combineTiles_spec hsorted hover
  obtain ⟨combined, hcombined, hconserves⟩ := combined_of_splits hsorted hsplits hhighest
  refine ⟨⟨combined, p.priority, left⟩, tiles, ?_, hsplits.sublist, hconserves⟩
  simp only [popTileQueue, hp, htiles, hcombined, Option.bind_some, Option.map_some]

/-- Popping changes the first of the chosen queues only. -/
theorem popFrom_eq (getTilePriority : TileDesc → Int) {chosen : Int × List TileDesc → Bool} {queues : TileQueues}
    {queue : Int × List TileDesc} (h : queues.find? chosen = some queue) :
    ∃ before after, queues = before ++ queue :: after ∧
      popFrom getTilePriority chosen queues =
        (popTileQueue getTilePriority queue.2).map fun popped =>
          ⟨popped.combined, popped.priority, before ++ (queue.1, popped.left) :: after⟩ := by
  induction queues with
  | nil => cases h
  | cons first rest ih =>
      by_cases hchosen : chosen first = true
      · rw [List.find?_cons_of_pos hchosen] at h
        cases h
        exact ⟨[], rest, rfl, by simp [popFrom, hchosen]⟩
      · rw [List.find?_cons_of_neg hchosen] at h
        obtain ⟨before, after, hsplit, hpop⟩ := ih h
        refine ⟨first :: before, after, by simp [hsplit], ?_⟩
        simp only [popFrom, hchosen, Bool.false_eq_true, if_false, hpop, Option.map_map]
        rfl

/-- If there are tiles, a queue with tiles is chosen. -/
theorem exists_chosen {queues : TileQueues} (viewIdsByPrio : List Int)
    (h : queues.isTileQueueEmpty = false) :
    ∃ queue, queues.find? (isChosen viewIdsByPrio queues) = some queue ∧ queue.2 ≠ [] := by
  have hexists : ∃ queue ∈ queues, isChosen viewIdsByPrio queues queue = true := by
    simp only [isChosen]
    split
    · next viewId hview =>
        have hany := List.find?_some hview
        obtain ⟨queue, hmem, hqueue⟩ := List.any_eq_true.mp hany
        exact ⟨queue, hmem, hqueue⟩
    · obtain ⟨queue, hmem, hqueue⟩ := List.all_eq_false.mp h
      exact ⟨queue, hmem, by simpa using hqueue⟩
  cases hfind : queues.find? (isChosen viewIdsByPrio queues) with
  | none =>
      obtain ⟨queue, hmem, hchosen⟩ := hexists
      exact absurd hchosen (List.find?_eq_none.mp hfind queue hmem)
  | some queue =>
      refine ⟨queue, rfl, ?_⟩
      have hchosen := List.find?_some hfind
      simp only [isChosen] at hchosen
      rintro hnil
      split at hchosen <;> simp [hnil] at hchosen

end Pop

/-! ## Runs -/

namespace TileQueues

/-- The next tile to be popped overruns its queue. -/
def overrunsNext (getTilePriority : TileDesc → Int) (viewIdsByInactivity : List Int)
    (queues : TileQueues) : Bool :=
  (queues.find? (isChosen viewIdsByInactivity queues)).any fun queue =>
    (prioritized getTilePriority queue.2).any overruns

/-- The next combined tile is made of tiles that leave one queue. -/
def PopConserves (getTilePriority : TileDesc → Int) (viewIdsByInactivity : List Int)
    (queues : TileQueues) : Prop :=
  ∃ before viewId tileQueue after tiles left popped,
    queues = before ++ (viewId, tileQueue) :: after ∧
      queues.pop getTilePriority viewIdsByInactivity = some popped ∧
      popped.left = before ++ (viewId, left) :: after ∧
      Conserves getTilePriority tileQueue tiles left popped.combined

/-- One queue for a view, and each of them sorted. -/
structure Valid (queues : TileQueues) : Prop where
  views : (queues.map Prod.fst).Nodup
  sorted : ∀ queue ∈ queues, Sorted queue.2

theorem pop_spec {queues : TileQueues} {getTilePriority : TileDesc → Int} {views : List Int}
    (hvalid : queues.Valid) (hne : queues.isTileQueueEmpty = false)
    (hover : overrunsNext getTilePriority views queues = false) :
    ∃ before viewId tileQueue after popped tiles,
      queues = before ++ (viewId, tileQueue) :: after ∧
      popTileQueue getTilePriority tileQueue = some popped ∧
      queues.pop getTilePriority views =
        some ⟨popped.combined, popped.priority, before ++ (viewId, popped.left) :: after⟩ ∧
      popped.left.Sublist tileQueue ∧
      Conserves getTilePriority tileQueue tiles popped.left popped.combined := by
  obtain ⟨⟨viewId, tileQueue⟩, hfind, htiles⟩ := exists_chosen views hne
  obtain ⟨before, after, hsplit, hpop⟩ := popFrom_eq getTilePriority hfind
  have hsorted := hvalid.sorted _ (List.mem_of_find?_eq_some hfind)
  simp only [overrunsNext, hfind, Option.any_some] at hover
  obtain ⟨popped, tiles, hpopped, hsub, hconserves⟩ := popTileQueue_spec htiles hsorted hover
  refine ⟨before, viewId, tileQueue, after, popped, tiles, hsplit, hpopped, ?_, hsub, hconserves⟩
  rw [pop, hne, hpop, hpopped]
  rfl

theorem popConserves {queues : TileQueues} {getTilePriority : TileDesc → Int} {views : List Int}
    (hvalid : queues.Valid) (hne : queues.isTileQueueEmpty = false)
    (hover : overrunsNext getTilePriority views queues = false) :
    PopConserves getTilePriority views queues := by
  obtain ⟨before, viewId, tileQueue, after, popped, tiles, hsplit, -, hpop, -, hconserves⟩ :=
    pop_spec hvalid hne hover
  exact ⟨before, viewId, tileQueue, after, tiles, popped.left, _, hsplit, hpop, rfl, hconserves⟩

inductive TileOp where
  | push (value : Payload)
  | pushCombined (value : Payload)
  | pop (getTilePriority : TileDesc → Int) (viewIdsByInactivity : List Int)

/-- What cannot be parsed leaves the queues as they are; popping needs tiles. -/
def step (queues : TileQueues) : TileOp → Option TileQueues
  | .push value => some ((pushTileQueue queues value).getD queues)
  | .pushCombined value => some ((pushTileCombineRequest queues value).getD queues)
  | .pop getTilePriority views => (queues.pop getTilePriority views).map fun popped => popped.left

/-- The tiles asked for have ids from -1 on. -/
def idsFromNone (_ : TileQueues) : TileOp → Bool
  | .push value => (TileDesc.parse value).all fun desc => -1 ≤ desc.id
  | _ => true

/-- And no pop overruns a queue. -/
def inReach (queues : TileQueues) (op : TileOp) : Bool :=
  idsFromNone queues op &&
    match op with
    | .pop getTilePriority views => !overrunsNext getTilePriority views queues
    | _ => true

theorem mem_onTileQueue {viewid : Int} {f : List TileDesc → List TileDesc} {queues : TileQueues}
    {queue : Int × List TileDesc} (h : queue ∈ onTileQueue viewid f queues) :
    queue ∈ queues ∨ queue.1 = viewid ∧ (queue.2 = f [] ∨ ∃ q, (viewid, q) ∈ queues ∧
      queue.2 = f q) := by
  induction queues with
  | nil =>
      rw [List.mem_singleton.mp h]
      exact Or.inr ⟨rfl, Or.inl rfl⟩
  | cons first rest ih =>
      by_cases hview : first.1 = viewid
      · simp only [onTileQueue, hview, if_true, List.mem_cons] at h
        rcases h with rfl | h
        · exact Or.inr ⟨rfl, Or.inr ⟨first.2, by simp [← hview], rfl⟩⟩
        · exact Or.inl (List.mem_cons_of_mem _ h)
      · simp only [onTileQueue, hview, if_false, List.mem_cons] at h
        rcases h with rfl | h
        · exact Or.inl (by simp)
        · rcases ih h with h | ⟨hfirst, h | ⟨q, hq, h⟩⟩
          · exact Or.inl (List.mem_cons_of_mem _ h)
          · exact Or.inr ⟨hfirst, Or.inl h⟩
          · exact Or.inr ⟨hfirst, Or.inr ⟨q, List.mem_cons_of_mem _ hq, h⟩⟩

/-- One queue is changed, or added. -/
theorem Valid.onTileQueue {queues : TileQueues} (h : queues.Valid) {viewid : Int}
    {f : List TileDesc → List TileDesc}
    (hf : ∀ tileQueue, Sorted tileQueue → Sorted (f tileQueue)) :
    TileQueues.Valid (onTileQueue viewid f queues) := by
  constructor
  · have hviews := h.views
    clear h
    induction queues with
    | nil => simp [Kit.onTileQueue]
    | cons first rest ih =>
        rw [List.map_cons, List.nodup_cons] at hviews
        by_cases hview : first.1 = viewid
        · simp only [Kit.onTileQueue, hview, if_true, List.map_cons, List.nodup_cons]
          rw [← hview]
          exact hviews
        · simp only [Kit.onTileQueue, hview, if_false, List.map_cons, List.nodup_cons]
          refine ⟨fun hmem => ?_, ih hviews.2⟩
          obtain ⟨queue, hqueue, heq⟩ := List.mem_map.mp hmem
          rcases mem_onTileQueue hqueue with hrest | ⟨hsame, -⟩
          · apply hviews.1
            rw [← heq]
            exact List.mem_map_of_mem hrest
          · exact hview (heq.symm.trans hsame)
  · intro queue hqueue
    rcases mem_onTileQueue hqueue with hmem | ⟨-, heq | ⟨q, hq, heq⟩⟩
    · exact h.sorted queue hmem
    · rw [heq]
      exact hf [] sorted_nil
    · rw [heq]
      exact hf q (h.sorted _ hq)

theorem step_valid {queues queues' : TileQueues} {op : TileOp} (hC : inReach queues op = true)
    (h : step queues op = some queues') (hvalid : queues.Valid) : queues'.Valid := by
  simp only [inReach, Bool.and_eq_true] at hC
  cases op with
  | push value =>
      cases h
      cases hparse : TileDesc.parse value with
      | none => simpa [pushTileQueue, hparse] using hvalid
      | some desc =>
          have hid : -1 ≤ desc.id := by simpa [idsFromNone, hparse] using hC.1
          simp only [pushTileQueue, hparse, Option.map_some, Option.getD_some]
          exact hvalid.onTileQueue fun _ hsorted =>
            hsorted.insert ⟨TileDesc.wellFormed_of_parse hparse, hid⟩
  | pushCombined value =>
      cases h
      cases hparse : TileCombined.parse value with
      | none => simpa [pushTileCombineRequest, hparse] using hvalid
      | some tileCombined =>
          simp only [pushTileCombineRequest, hparse, Option.map_some, Option.getD_some]
          refine hvalid.onTileQueue fun _ hsorted => hsorted.foldl fun t ht => ?_
          obtain ⟨hwell, hid⟩ := (TileCombined.Uniform.of_parse hparse).2 t ht
          exact ⟨hwell, hid.ge⟩
  | pop getTilePriority views =>
      simp only [Bool.not_eq_true'] at hC
      obtain ⟨popped, hpop, rfl⟩ := Option.map_eq_some_iff.mp h
      have hne : queues.isTileQueueEmpty = false := by
        cases hempty : queues.isTileQueueEmpty with
        | false => rfl
        | true => simp [TileQueues.pop, hempty] at hpop
      obtain ⟨before, viewId, tileQueue, after, popped', tiles, rfl, -, hpop', hsub, -⟩ :=
        pop_spec hvalid hne hC.2
      rw [hpop] at hpop'
      cases hpop'
      constructor
      · simpa using hvalid.views
      · intro queue hqueue
        have hall := hvalid.sorted
        simp only [List.mem_append, List.mem_cons] at hqueue hall
        rcases hqueue with hqueue | rfl | hqueue
        · exact hall queue (Or.inl hqueue)
        · exact (hall (viewId, tileQueue) (Or.inr (Or.inl rfl))).sublist hsub
        · exact hall queue (Or.inr (Or.inr hqueue))

theorem run_valid {ops : List TileOp} {queues : TileQueues}
    (hrun : run (stepIf step inReach) [] ops = some queues) : queues.Valid := by
  refine run_invariant _ (I := Valid) ?_ hrun ⟨List.nodup_nil, by simp⟩
  intro queues op queues' hstep hvalid
  obtain ⟨hC, hstep⟩ := (stepIf_eq_some _).mp hstep
  exact step_valid hC hstep hvalid

/-- While no pop overruns a queue, there is one sorted queue for a view, and a pop takes the tiles
of its combined tile out of one of them. -/
theorem tileQueues_conserved {ops : List TileOp} {queues : TileQueues}
    (hrun : run (stepIf step inReach) [] ops = some queues) :
    (queues.map Prod.fst).Nodup ∧ (∀ queue ∈ queues, Strict TileDesc.key queue.2) ∧
      ∀ getTilePriority views, queues.isTileQueueEmpty = false →
        overrunsNext getTilePriority views queues = false →
        PopConserves getTilePriority views queues := by
  have hvalid := run_valid hrun
  exact ⟨hvalid.views, fun queue hqueue => (hvalid.sorted queue hqueue).strict,
    fun _ _ hne hover => popConserves hvalid hne hover⟩

/-- Two tiles of a row, and one of the row below, are popped together. -/
theorem tileQueues_conserved_rows : ∃ queues,
    run (stepIf step inReach) []
      [.pushCombined ("tilecombine nviewid=1 part=0 width=256 height=256 tileposx=3840,0,0 " ++
          "tileposy=0,0,3840 tilewidth=3840 tileheight=3840").toList,
        .push ("tile nviewid=1 part=0 width=180 height=135 tileposx=0 tileposy=0 " ++
          "tilewidth=15875 tileheight=11906 id=0").toList] = some queues ∧
    PopConserves (fun t => t.tilePosX) [1] queues := by
  obtain ⟨queues, hrun, hne, hover⟩ := run_reaches (stepIf step inReach) []
    [.pushCombined ("tilecombine nviewid=1 part=0 width=256 height=256 tileposx=3840,0,0 " ++
        "tileposy=0,0,3840 tilewidth=3840 tileheight=3840").toList,
      .push ("tile nviewid=1 part=0 width=180 height=135 tileposx=0 tileposy=0 " ++
        "tilewidth=15875 tileheight=11906 id=0").toList]
    (P := fun queues => queues.isTileQueueEmpty = false ∧
      overrunsNext (fun t => t.tilePosX) [1] queues = false) (by decide +kernel)
  exact ⟨queues, hrun, (tileQueues_conserved hrun).2.2 _ _ hne hover⟩

/-- A tile in the last column with one in the first column of its row: the scan to the right runs
over the end of the queue. -/
theorem tileQueues_overrun : ¬ ∀ (ops : List TileOp) (queues : TileQueues),
    run (stepIf step idsFromNone) [] ops = some queues →
    (queues.map Prod.fst).Nodup ∧ (∀ queue ∈ queues, Strict TileDesc.key queue.2) ∧
      ∀ getTilePriority views, queues.isTileQueueEmpty = false →
        PopConserves getTilePriority views queues := by
  intro h
  obtain ⟨queues, hrun, hne, hnone⟩ := run_reaches (stepIf step idsFromNone) []
    [.pushCombined ("tilecombine nviewid=0 part=0 width=256 height=256 " ++
      "tileposx=0,2147483647 tileposy=0,0 tilewidth=1 tileheight=1").toList]
    (P := fun queues => queues.isTileQueueEmpty = false ∧
      (queues.pop (fun t => t.tilePosX) [0]).isNone = true) (by decide +kernel)
  obtain ⟨-, -, hpop⟩ := h _ _ hrun
  obtain ⟨_, _, _, _, _, _, popped, -, hsome, -⟩ := hpop (fun t => t.tilePosX) [0] hne
  rw [hsome] at hnone
  cases hnone

end TileQueues

end CoolOnline.Kit
