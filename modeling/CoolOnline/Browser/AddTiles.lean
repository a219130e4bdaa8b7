import CoolOnline.Browser.TileManager

/-! # The requests for tiles

`addTiles` of `TileManager` in `browser/src/app/TilesMiddleware.ts`: coordinates that are queued are
filtered, carved into rectangles and requested, those of one part and mode in one message. The
clock is read as one time for the task. The distances of new tiles are left out.
-/

namespace CoolOnline.Browser

/-- A tile, and when it was last requested. -/
structure RequestedTile (ι : Type) where
  tile : Tile ι
  lastRequestTime : Option Int

def Tile.needsFetch {ι : Type} (t : Tile ι) : Bool := t.wireId ≤ t.invalidFrom || !t.hasContent

/-- Avoids to request tiles again and again. -/
def RequestedTile.requestingTooFast {ι : Type} (t : RequestedTile ι) (now : Int) : Bool :=
  t.lastRequestTime.any fun time => now - time < 5000

/-- What is shown, and whether it is being moved. -/
structure DocView where
  selectedPart : Int
  selectedMode : Int
  isWriter : Bool
  moveInProgress : Bool

/-- A message for tiles of one part and mode: the coordinates, which are sent as positions, and the
ids of what is there. -/
structure TileCombineMessage where
  part : Int
  mode : Int
  tiles : List (TileCoordData × Nat)

namespace TileCombineMessage

variable (m : TileCombineMessage) (tileSizeX tileSizeY : Int)

def tilePositionsX : List Int := m.tiles.map fun entry => entry.1.x / tileSize * tileSizeX

def tilePositionsY : List Int := m.tiles.map fun entry => entry.1.y / tileSize * tileSizeY

def tileWids : List Nat := m.tiles.map Prod.snd

end TileCombineMessage

abbrev TileMap (ι : Type) := OrderedMap Key (RequestedTile ι)

namespace AddTiles

section Tiles

variable {ι : Type} (tiles : TileMap ι)

def tileNeedsFetch (key : Key) : Bool := (tiles.get key).all fun t => t.tile.needsFetch

def tooFast (now : Int) (key : Key) : Bool := (tiles.get key).any fun t => t.requestingTooFast now

/-- The id of what the client holds, or 0. -/
def heldWid (key : Key) : Nat := ((tiles.get key).map fun t => t.tile.wireId).getD 0

def createTile (coords : TileCoordData) : TileMap ι :=
  if tiles.has coords.key then tiles else tiles.set coords.key ⟨.new coords, none⟩

def updateLastRequest (now : Int) (key : Key) : TileMap ι :=
  tiles.modify key fun t => { t with lastRequestTime := some now }

end Tiles

variable {ι : Type} (v : DocView) (now : Int)

/-! ## What is left in the queue -/

/-- The turn of the loop for one coordinate: what is left of those after it, and what has been
requested during the move. -/
def removeIrrelevant (tiles : TileMap ι) (coords : TileCoordData)
    (s : List TileCoordData × List Key) : List TileCoordData × List Key :=
  if coords.part ≠ v.selectedPart ∨ coords.mode ≠ v.selectedMode ∨
      tileNeedsFetch tiles coords.key = false then s
  else if v.moveInProgress then
    if coords.key ∈ s.2 then s else (coords :: s.1, s.2 ++ [coords.key])
  else (coords :: s.1, s.2)

/-- The loop goes back from the last coordinate, down to the second. -/
def removeIrrelevantsFromCoordsQueue (tiles : TileMap ι) (moveTileRequests : List Key) :
    List TileCoordData → List TileCoordData × List Key
  | [] => ([], moveTileRequests)
  | first :: rest =>
      let (left, moveTileRequests) :=
        rest.foldr (removeIrrelevant v tiles) ([], moveTileRequests)
      (first :: left, moveTileRequests)

/-! ## Rectangles -/

/-- Rows from the top, each from the left. -/
def rowOrder (a b : TileCoordData) : Prop := a.y < b.y ∨ a.y = b.y ∧ a.x ≤ b.x

instance : DecidableRel rowOrder := fun _ _ => inferInstanceAs (Decidable (_ ∨ _))

/-- The corner of a rectangle that grows, and what has been met. -/
structure Growing where
  x : Int
  y : Int
  rowLocked : Bool
  hasHole : Bool

/-- Extends the bound by a row if possible (so far it was continuous). -/
def Growing.extendRow (g : Growing) (current : TileCoordData) : Growing :=
  if g.hasHole = false ∧ current.y = g.y + tileSize then
    { g with rowLocked := true, y := g.y + tileSize }
  else g

/-- The coordinates that the rectangle takes, and those that it leaves. -/
def grow : Growing → List TileCoordData → List TileCoordData × List TileCoordData
  | _, [] => ([], [])
  | g, current :: rest =>
      let g := g.extendRow current
      let takes (g : Growing) := let (rect, left) := grow g rest; (current :: rect, left)
      let leaves (g : Growing) := let (rect, left) := grow g rest; (rect, current :: left)
      if g.y < current.y then ([], current :: rest)
      else if g.rowLocked = false then
        if current.y = g.y ∧ current.x = g.x + tileSize then takes { g with x := g.x + tileSize }
        -- the rest of the row is ignored
        else leaves { g with rowLocked := true }
      else if current.x ≤ g.x ∧ current.y ≤ g.y then takes g
      -- there still may be other tiles
      else leaves { g with hasHole := true }

/-- The loop that takes rectangles off the queue; each has the first coordinate at least. -/
def carve : Nat → List TileCoordData → List (List TileCoordData)
  | turns + 1, coords :: queue =>
      let (rect, left) := grow ⟨coords.x, coords.y, false, false⟩ queue
      (coords :: rect) :: carve turns left
  | _, _ => []

def rectangles (queue : List TileCoordData) : List (List TileCoordData) :=
  carve queue.length (queue.insertionSort rowOrder)

/-! ## Messages -/

/-- Mode is a small number, and gets 8 bits. -/
def pmKey (part mode : Int) : Int := (part * 2 ^ 8).bmod (2 ^ 32) + mode

/-- The keys in the order of an object: numbers from 0 on first, by size. -/
def pmKeys (queue : List TileCoordData) : List Int :=
  let keys := (queue.map fun coords => pmKey coords.part coords.mode).eraseDups
  (keys.filter fun key => 0 ≤ key).insertionSort (· ≤ ·) ++ keys.filter fun key => key < 0

def partMode (queue : List TileCoordData) : List (List TileCoordData) :=
  (pmKeys queue).map fun key => queue.filter fun coords => pmKey coords.part coords.mode = key

/-- The loop over the coordinates of a message. -/
def collect : List TileCoordData → TileMap ι → List Key → TileMap ι × List (TileCoordData × Nat)
  | [], tiles, _ => (tiles, [])
  | coords :: rest, tiles, added =>
      -- no lots of duplicate, fast messages
      if tooFast tiles now coords.key then collect rest tiles added
      -- each tile just once
      else if coords.key ∈ added then collect rest tiles added
      else
        let (tiles', entries) :=
          collect rest (updateLastRequest tiles now coords.key) (coords.key :: added)
        (tiles', (coords, heldWid tiles coords.key) :: entries)

/-- The tiles, and the messages that have been sent. -/
structure Sending (ι : Type) where
  tiles : TileMap ι
  sent : List TileCombineMessage

/-- An empty message is skipped. -/
def tileCombineMessage (part mode : Int) (entries : List (TileCoordData × Nat)) :
    List TileCombineMessage :=
  if entries = [] then [] else [⟨part, mode, entries⟩]

/-- When Writer requests mode 2, it also requests mode 1. -/
def sendPartMode (s : Sending ι) : List TileCoordData → Sending ι
  | [] => s
  | first :: rest =>
      let (tiles, entries) := collect now (first :: rest) s.tiles []
      ⟨tiles, s.sent ++ tileCombineMessage first.part first.mode entries ++
        if v.isWriter = true ∧ first.mode = 2 then tileCombineMessage first.part 1 entries else []⟩

def sendTileCombineRequest (s : Sending ι) (queue : List TileCoordData) : Sending ι :=
  (partMode queue).foldl (sendPartMode v now) s

/-- What is left when tiles are added: the tiles, the messages, and what has been requested during
the move. -/
def addTiles (tiles : TileMap ι) (moveTileRequests : List Key) (coordsQueue : List TileCoordData) :
    Sending ι × List Key :=
  let (queue, moveTileRequests) :=
    removeIrrelevantsFromCoordsQueue v tiles moveTileRequests coordsQueue
  let tiles := queue.foldl createTile tiles
  ((rectangles queue).foldl (sendTileCombineRequest v now) ⟨tiles, []⟩, moveTileRequests)

/-! ## What is wanted -/

/-- It is part of what is shown, needs fetching, and has not been requested during the move. -/
structure Relevant (tiles : TileMap ι) (moveTileRequests : List Key) (c : TileCoordData) :
    Prop where
  part : c.part = v.selectedPart
  mode : c.mode = v.selectedMode
  needsFetch : tileNeedsFetch tiles c.key = true
  newInMove : v.moveInProgress = true → c.key ∉ moveTileRequests

/-- It is relevant, and has not been requested within 5 seconds. -/
structure Wanted (tiles : TileMap ι) (moveTileRequests : List Key) (c : TileCoordData) : Prop
    extends Relevant v tiles moveTileRequests c where
  notTooFast : tooFast tiles now c.key = false

/-- The coordinates and ids of the messages for a part and mode. -/
def entriesFor (sent : List TileCombineMessage) (part mode : Int) : List (TileCoordData × Nat) :=
  (sent.filter fun m => m.part = part ∧ m.mode = mode).flatMap TileCombineMessage.tiles

/-- Coordinates are requested for their mode; in Writer, those for mode 2 also for mode 1. -/
def RequestedFor (c : TileCoordData) (part mode : Int) : Prop :=
  c.part = part ∧ (c.mode = mode ∨ v.isWriter = true ∧ c.mode = 2 ∧ mode = 1)

instance (c : TileCoordData) (part mode : Int) : Decidable (RequestedFor v c part mode) :=
  inferInstanceAs (Decidable (_ ∧ _))

/-- What is wanted is requested once, with the id of what the client holds there. -/
def ExactlyWanted (tiles : TileMap ι) (moveTileRequests : List Key)
    (coordsQueue : List TileCoordData) : Prop :=
  ∀ part mode,
    let entries := entriesFor (addTiles v now tiles moveTileRequests coordsQueue).1.sent part mode
    (entries.map Prod.fst).Nodup ∧
      ∀ c wid, (c, wid) ∈ entries ↔
        c ∈ coordsQueue ∧ Wanted v now tiles moveTileRequests c ∧ RequestedFor v c part mode ∧
          wid = heldWid tiles { c with mode := mode }.key

/-! ## What is left in the queue -/

section Queue

variable {v} {tiles : TileMap ι} {moveTileRequests : List Key}

theorem relevant_iff {c : TileCoordData} :
    Relevant v tiles moveTileRequests c ↔
      ¬(c.part ≠ v.selectedPart ∨ c.mode ≠ v.selectedMode ∨
        tileNeedsFetch tiles c.key = false) ∧
      (v.moveInProgress = true → c.key ∉ moveTileRequests) := by
  constructor
  · rintro ⟨hpart, hmode, hfetch, hmove⟩
    exact ⟨by simp [hpart, hmode, hfetch], hmove⟩
  · rintro ⟨hshown, hmove⟩
    simp only [not_or, not_not, Bool.not_eq_false] at hshown
    exact ⟨hshown.1, hshown.2.1, hshown.2.2, hmove⟩

/-- Of the coordinates after the first, the relevant ones are left, and noted during a move. -/
theorem mem_foldr_removeIrrelevant (v : DocView) (tiles : TileMap ι) (moveTileRequests : List Key)
    (rest : List TileCoordData) :
    let s := rest.foldr (removeIrrelevant v tiles) ([], moveTileRequests)
    (∀ c, c ∈ s.1 ↔ c ∈ rest ∧ Relevant v tiles moveTileRequests c) ∧
      (v.moveInProgress = true →
        ∀ key, key ∈ s.2 ↔ key ∈ moveTileRequests ∨ ∃ c ∈ s.1, c.key = key) := by
  induction rest with
  | nil => simp
  | cons coords rest ih =>
      rw [List.foldr_cons]
      generalize rest.foldr (removeIrrelevant v tiles) ([], moveTileRequests) = s at ih
      rcases ih with ⟨hleft, hnoted⟩
      have hskip (h : Relevant v tiles moveTileRequests coords → coords ∈ rest)
          (c : TileCoordData) :
          c ∈ s.1 ↔ c ∈ coords :: rest ∧ Relevant v tiles moveTileRequests c := by
        rw [hleft, List.mem_cons]
        constructor
        · exact fun hc => ⟨Or.inr hc.1, hc.2⟩
        · rintro ⟨rfl | hc, hrelevant⟩
          · exact ⟨h hrelevant, hrelevant⟩
          · exact ⟨hc, hrelevant⟩
      have htake (h : Relevant v tiles moveTileRequests coords) (c : TileCoordData) :
          c ∈ coords :: s.1 ↔ c ∈ coords :: rest ∧ Relevant v tiles moveTileRequests c := by
        rw [List.mem_cons, hleft, List.mem_cons]
        constructor
        · rintro (rfl | hc)
          · exact ⟨Or.inl rfl, h⟩
          · exact ⟨Or.inr hc.1, hc.2⟩
        · rintro ⟨rfl | hc, hrelevant⟩
          · exact Or.inl rfl
          · exact Or.inr ⟨hc, hrelevant⟩
      rw [removeIrrelevant]
      split
      case isTrue hother => exact ⟨hskip fun h => absurd hother (relevant_iff.mp h).1, hnoted⟩
      case isFalse hshown =>
        split
        case isTrue hmove =>
          split
          case isTrue hmem =>
            refine ⟨hskip fun h => ?_, hnoted⟩
            rcases (hnoted hmove _).mp hmem with hbefore | ⟨c, hc, hkey⟩
            · exact absurd hbefore (h.newInMove hmove)
            · rw [← TileCoordData.key_injective hkey]
              exact ((hleft c).mp hc).1
          case isFalse hmem =>
            have hnew := mt (hnoted hmove coords.key).mpr hmem
            rw [not_or] at hnew
            refine ⟨htake (relevant_iff.mpr ⟨hshown, fun _ => hnew.1⟩), fun _ key => ?_⟩
            rw [List.mem_append, List.mem_singleton, hnoted hmove, List.exists_mem_cons_iff,
              or_assoc, or_comm (a := ∃ c ∈ s.1, c.key = key), eq_comm (a := key)]
        case isFalse hmove =>
          exact ⟨htake (relevant_iff.mpr ⟨hshown, fun h => absurd h hmove⟩),
            fun h => absurd h hmove⟩

theorem mem_removeIrrelevants {first : TileCoordData} {rest : List TileCoordData}
    {c : TileCoordData} :
    c ∈ (removeIrrelevantsFromCoordsQueue v tiles moveTileRequests (first :: rest)).1 ↔
      c = first ∨ c ∈ rest ∧ Relevant v tiles moveTileRequests c := by
  have hleft := (mem_foldr_removeIrrelevant v tiles moveTileRequests rest).1 c
  change c ∈ first :: _ ↔ _
  rw [List.mem_cons, hleft]

end Queue

/-! ## Rectangles -/

theorem mem_grow (g : Growing) (queue : List TileCoordData) (c : TileCoordData) :
    c ∈ (grow g queue).1 ∨ c ∈ (grow g queue).2 ↔ c ∈ queue := by
  induction queue generalizing g with
  | nil => simp [grow]
  | cons current rest ih =>
      rw [grow]
      split
      case isTrue => simp
      case isFalse =>
        split
        · split
          · simp only [List.mem_cons, or_assoc, ih]
          · simp only [List.mem_cons, or_left_comm, ih]
        · split
          · simp only [List.mem_cons, or_assoc, ih]
          · simp only [List.mem_cons, or_left_comm, ih]

theorem length_grow (g : Growing) (queue : List TileCoordData) :
    (grow g queue).2.length ≤ queue.length := by
  induction queue generalizing g with
  | nil => exact Nat.le_refl _
  | cons current rest ih =>
      rw [grow]
      split
      case isTrue => exact Nat.le_refl _
      case isFalse =>
        split
        · split
          · exact Nat.le_succ_of_le (ih _)
          · exact Nat.succ_le_succ (ih _)
        · split
          · exact Nat.le_succ_of_le (ih _)
          · exact Nat.succ_le_succ (ih _)

theorem mem_carve {turns : Nat} {queue : List TileCoordData} (hturns : queue.length ≤ turns)
    (c : TileCoordData) : c ∈ (carve turns queue).flatten ↔ c ∈ queue := by
  induction turns generalizing queue with
  | zero =>
      rw [List.length_eq_zero_iff.mp (Nat.le_zero.mp hturns)]
      rfl
  | succ turns ih =>
      cases queue with
      | nil => rfl
      | cons coords queue =>
          have hlength := length_grow ⟨coords.x, coords.y, false, false⟩ queue
          rw [List.length_cons] at hturns
          rw [carve]
          simp only [List.flatten_cons, List.cons_append, List.mem_cons, List.mem_append]
          rw [ih (by omega), mem_grow]

theorem mem_rectangles (queue : List TileCoordData) (c : TileCoordData) :
    c ∈ (rectangles queue).flatten ↔ c ∈ queue := by
  rw [rectangles, mem_carve (List.length_insertionSort _ _).le, List.mem_insertionSort]

theorem mem_pmKeys {queue : List TileCoordData} {c : TileCoordData} (h : c ∈ queue) :
    pmKey c.part c.mode ∈ pmKeys queue := by
  have hmem : pmKey c.part c.mode ∈
      (queue.map fun coords => pmKey coords.part coords.mode).eraseDups := by
    rw [List.mem_eraseDups]
    exact List.mem_map_of_mem h
  rw [pmKeys, List.mem_append, List.mem_insertionSort, List.mem_filter, List.mem_filter]
  by_cases hsign : 0 ≤ pmKey c.part c.mode
  · exact Or.inl ⟨hmem, decide_eq_true hsign⟩
  · exact Or.inr ⟨hmem, decide_eq_true (not_le.mp hsign)⟩

theorem mem_partMode (queue : List TileCoordData) (c : TileCoordData) :
    c ∈ (partMode queue).flatten ↔ c ∈ queue := by
  simp only [partMode, List.mem_flatten, List.mem_map]
  constructor
  · rintro ⟨bucket, ⟨key, -, rfl⟩, hc⟩
    exact List.mem_of_mem_filter hc
  · intro hc
    refine ⟨_, ⟨_, mem_pmKeys hc, rfl⟩, ?_⟩
    rw [List.mem_filter]
    exact ⟨hc, decide_eq_true rfl⟩

/-! ## Messages -/

section Tiles

variable {tiles : TileMap ι} {now} {key key' : Key}

theorem has_createTile (coords : TileCoordData) (h : tiles.has key = true ∨ coords.key = key) :
    (createTile tiles coords).has key = true := by
  rw [createTile]
  split
  case isTrue hhas => rcases h with h | rfl <;> assumption
  case isFalse =>
    rcases h with h | rfl
    · exact OrderedMap.has_set_of_has h
    · exact OrderedMap.has_set_self

theorem get_createTile (tiles : TileMap ι) (coords : TileCoordData) (key : Key) :
    (createTile tiles coords).get key = tiles.get key ∨
      tiles.get key = none ∧ (createTile tiles coords).get key = some ⟨.new coords, none⟩ := by
  rw [createTile]
  split
  case isTrue => exact Or.inl rfl
  case isFalse hhas =>
    rw [OrderedMap.get_set]
    split
    case isTrue hkey =>
      rw [← hkey]
      exact Or.inr ⟨by simpa [OrderedMap.has] using hhas, rfl⟩
    case isFalse => exact Or.inl rfl

/-- A new tile has not been requested, and has no id. -/
theorem tooFast_createTile (coords : TileCoordData) (key : Key) :
    tooFast (createTile tiles coords) now key = tooFast tiles now key := by
  rw [tooFast, tooFast]
  rcases get_createTile tiles coords key with h | ⟨hnone, h⟩
  · rw [h]
  · rw [h, hnone]
    rfl

theorem heldWid_createTile (coords : TileCoordData) (key : Key) :
    heldWid (createTile tiles coords) key = heldWid tiles key := by
  rw [heldWid, heldWid]
  rcases get_createTile tiles coords key with h | ⟨hnone, h⟩
  · rw [h]
  · rw [h, hnone]
    rfl

theorem has_updateLastRequest (key' key : Key) :
    (updateLastRequest tiles now key').has key = tiles.has key := by
  rw [updateLastRequest, OrderedMap.has, OrderedMap.get_modify, OrderedMap.has]
  split
  case isTrue => rw [Option.isSome_map]
  case isFalse => rfl

theorem heldWid_updateLastRequest (key' key : Key) :
    heldWid (updateLastRequest tiles now key') key = heldWid tiles key := by
  rw [updateLastRequest, heldWid, OrderedMap.get_modify, heldWid]
  split
  case isTrue =>
    rw [Option.map_map]
    rfl
  case isFalse => rfl

/-- What has just been requested is not requested again. -/
theorem tooFast_updateLastRequest (hhas : tiles.has key' = true) (key : Key) :
    tooFast (updateLastRequest tiles now key') now key =
      (tooFast tiles now key || decide (key' = key)) := by
  rw [updateLastRequest, tooFast, OrderedMap.get_modify, tooFast]
  split
  case isTrue hkey =>
    rcases Option.isSome_iff_exists.mp hhas with ⟨t, ht⟩
    rw [← hkey, ht]
    simp [RequestedTile.requestingTooFast]
  case isFalse hkey => simp [hkey]

end Tiles

/-- What the loop over the coordinates of a message gives. -/
structure Collected (tiles : TileMap ι) (bucket : List TileCoordData) (tiles' : TileMap ι)
    (entries : List (TileCoordData × Nat)) : Prop where
  nodup : (entries.map Prod.fst).Nodup
  mem : ∀ c wid, (c, wid) ∈ entries ↔
    c ∈ bucket ∧ tooFast tiles now c.key = false ∧ wid = heldWid tiles c.key
  tooFast : ∀ c : TileCoordData, tooFast tiles' now c.key = false ↔
    tooFast tiles now c.key = false ∧ c ∉ bucket
  heldWid : ∀ key, heldWid tiles' key = heldWid tiles key
  has : ∀ key, tiles'.has key = tiles.has key

section Collected

variable {now} {tiles tiles' : TileMap ι} {coords : TileCoordData} {rest : List TileCoordData}
  {entries : List (TileCoordData × Nat)}

theorem Collected.skip (h : Collected now tiles rest tiles' entries)
    (hfast : AddTiles.tooFast tiles now coords.key = true) :
    Collected now tiles (coords :: rest) tiles' entries where
  nodup := h.nodup
  mem c wid := by
    rw [h.mem, List.mem_cons]
    constructor
    · exact fun hc => ⟨Or.inr hc.1, hc.2⟩
    · rintro ⟨rfl | hc, hslow, hwid⟩
      · rw [hslow] at hfast
        cases hfast
      · exact ⟨hc, hslow, hwid⟩
  tooFast c := by
    rw [h.tooFast, List.mem_cons, not_or]
    constructor
    · rintro ⟨hslow, hc⟩
      refine ⟨hslow, ?_, hc⟩
      rintro rfl
      rw [hslow] at hfast
      cases hfast
    · exact fun hc => ⟨hc.1, hc.2.2⟩
  heldWid := h.heldWid
  has := h.has

theorem Collected.take
    (h : Collected now (updateLastRequest tiles now coords.key) rest tiles' entries)
    (hhas : tiles.has coords.key = true) (hslow : AddTiles.tooFast tiles now coords.key = false) :
    Collected now tiles (coords :: rest) tiles'
      ((coords, AddTiles.heldWid tiles coords.key) :: entries) := by
  have hupdated (c : TileCoordData) :
      AddTiles.tooFast (updateLastRequest tiles now coords.key) now c.key = false ↔
        AddTiles.tooFast tiles now c.key = false ∧ coords ≠ c := by
    rw [tooFast_updateLastRequest hhas, Bool.or_eq_false_iff, decide_eq_false_iff_not,
      TileCoordData.key_injective.eq_iff]
  constructor
  case nodup =>
    rw [List.map_cons, List.nodup_cons]
    refine ⟨fun hmem => ?_, h.nodup⟩
    rcases List.mem_map.mp hmem with ⟨⟨c, wid⟩, hentry, heq⟩
    exact ((hupdated c).mp ((h.mem c wid).mp hentry).2.1).2 heq.symm
  case mem =>
    intro c wid
    rw [List.mem_cons, h.mem, hupdated, heldWid_updateLastRequest, List.mem_cons, Prod.mk.injEq]
    constructor
    · rintro (⟨rfl, rfl⟩ | ⟨hc, ⟨hfresh, -⟩, hwid⟩)
      · exact ⟨Or.inl rfl, hslow, rfl⟩
      · exact ⟨Or.inr hc, hfresh, hwid⟩
    · rintro ⟨hc, hfresh, hwid⟩
      by_cases heq : c = coords
      · subst heq
        exact Or.inl ⟨rfl, hwid⟩
      · exact Or.inr ⟨hc.resolve_left heq, ⟨hfresh, Ne.symm heq⟩, hwid⟩
  case tooFast =>
    intro c
    rw [h.tooFast, hupdated, and_assoc, List.mem_cons, not_or, ne_comm]
  case heldWid => exact fun key => (h.heldWid key).trans (heldWid_updateLastRequest _ _)
  case has => exact fun key => (h.has key).trans (has_updateLastRequest _ _)

end Collected

theorem collected (bucket : List TileCoordData) (tiles : TileMap ι) (added : List Key)
    (hhas : ∀ c ∈ bucket, tiles.has c.key = true)
    (hadded : ∀ key ∈ added, tooFast tiles now key = true) :
    Collected now tiles bucket (collect now bucket tiles added).1
      (collect now bucket tiles added).2 := by
  induction bucket generalizing tiles added with
  | nil => constructor <;> simp [collect]
  | cons coords rest ih =>
      have hhasRest : ∀ c ∈ rest, tiles.has c.key = true := fun c hc =>
        hhas c (List.mem_cons_of_mem _ hc)
      rw [collect]
      by_cases hfast : tooFast tiles now coords.key = true
      · rw [if_pos hfast]
        exact (ih _ _ hhasRest hadded).skip hfast
      · have hslow : tooFast tiles now coords.key = false := Bool.not_eq_true _ ▸ hfast
        have hnew : coords.key ∉ added := fun hmem => hfast (hadded _ hmem)
        have hhasFirst := hhas coords List.mem_cons_self
        rw [if_neg hfast, if_neg hnew]
        refine Collected.take (ih _ _ ?_ ?_) hhasFirst hslow
        · intro c hc
          rw [has_updateLastRequest]
          exact hhasRest c hc
        · intro key hkey
          rw [tooFast_updateLastRequest hhasFirst]
          rcases List.mem_cons.mp hkey with rfl | hkey
          · simp
          · rw [hadded key hkey, Bool.true_or]

/-- What has been sent for these coordinates, of what was there at first. -/
structure SentFor (tiles : TileMap ι) (requested : List TileCoordData) (s : Sending ι) : Prop where
  tooFast : ∀ c : TileCoordData, tooFast s.tiles now c.key = false ↔
    tooFast tiles now c.key = false ∧ c ∉ requested
  heldWid : ∀ key, heldWid s.tiles key = heldWid tiles key
  has : ∀ key, s.tiles.has key = tiles.has key
  nodup : ∀ part mode, ((entriesFor s.sent part mode).map Prod.fst).Nodup
  mem : ∀ part mode c wid, (c, wid) ∈ entriesFor s.sent part mode ↔
    c ∈ requested ∧ AddTiles.tooFast tiles now c.key = false ∧ RequestedFor v c part mode ∧
      wid = AddTiles.heldWid tiles c.key

/-- The coordinates of a bucket are of the part and mode of the first. -/
def Bucketed (bucket : List TileCoordData) : Prop :=
  ∀ first ∈ bucket.head?, ∀ c ∈ bucket, c.part = first.part ∧ c.mode = first.mode

section Sent

variable {v now} {tiles : TileMap ι} {requested bucket : List TileCoordData} {s : Sending ι}

theorem entriesFor_append (sent sent' : List TileCombineMessage) (part mode : Int) :
    entriesFor (sent ++ sent') part mode =
      entriesFor sent part mode ++ entriesFor sent' part mode := by
  rw [entriesFor, List.filter_append, List.flatMap_append]
  rfl

theorem entriesFor_tileCombineMessage (part mode part' mode' : Int)
    (entries : List (TileCoordData × Nat)) :
    entriesFor (tileCombineMessage part mode entries) part' mode' =
      if part = part' ∧ mode = mode' then entries else [] := by
  rw [tileCombineMessage]
  by_cases hnil : entries = []
  · rw [if_pos hnil, hnil, ite_self]
    rfl
  · rw [if_neg hnil]
    by_cases heq : part = part' ∧ mode = mode'
    · simp [entriesFor, heq]
    · simp [entriesFor, heq]

/-- What the messages of a bucket add. -/
theorem entriesFor_bucket (first : TileCoordData) (entries : List (TileCoordData × Nat))
    (part mode : Int) :
    entriesFor (tileCombineMessage first.part first.mode entries ++
        if v.isWriter = true ∧ first.mode = 2 then tileCombineMessage first.part 1 entries else [])
        part mode =
      if RequestedFor v first part mode then entries else [] := by
  rw [entriesFor_append, entriesFor_tileCombineMessage]
  by_cases hmode : first.part = part ∧ first.mode = mode
  · -- a message for mode 1 beside it is for another mode
    have hrest : entriesFor (if v.isWriter = true ∧ first.mode = 2 then
        tileCombineMessage first.part 1 entries else []) part mode = [] := by
      split
      case isTrue hwriter =>
        rw [entriesFor_tileCombineMessage, if_neg]
        omega
      case isFalse => rfl
    rw [if_pos hmode, hrest, List.append_nil, if_pos ⟨hmode.1, Or.inl hmode.2⟩]
  · rw [if_neg hmode, List.nil_append]
    by_cases hwriter : v.isWriter = true ∧ first.mode = 2
    · rw [if_pos hwriter, entriesFor_tileCombineMessage]
      congr 1
      rw [eq_iff_iff, RequestedFor]
      constructor
      · exact fun h => ⟨h.1, Or.inr ⟨hwriter.1, hwriter.2, h.2.symm⟩⟩
      · rintro ⟨hpart, hfirst | ⟨-, -, hone⟩⟩
        · exact absurd ⟨hpart, hfirst⟩ hmode
        · exact ⟨hpart, hone.symm⟩
    · rw [if_neg hwriter, if_neg]
      · rfl
      · rintro ⟨hpart, hfirst | ⟨h, htwo, -⟩⟩
        · exact hmode ⟨hpart, hfirst⟩
        · exact hwriter ⟨h, htwo⟩

theorem SentFor.sendPartMode (h : SentFor v now tiles requested s)
    (hhas : ∀ c ∈ bucket, tiles.has c.key = true) (hbucket : Bucketed bucket) :
    SentFor v now tiles (requested ++ bucket) (sendPartMode v now s bucket) := by
  cases bucket with
  | nil =>
      rw [List.append_nil]
      exact h
  | cons first rest =>
      have hcollected := collected now (first :: rest) s.tiles []
        (fun c hc => (h.has c.key).trans (hhas c hc)) (by simp)
      rw [AddTiles.sendPartMode]
      generalize collect now (first :: rest) s.tiles [] = result at hcollected
      rcases result with ⟨tiles', entries⟩
      have hentry (c : TileCoordData) (wid : Nat) : (c, wid) ∈ entries ↔
          c ∈ first :: rest ∧ c ∉ requested ∧ AddTiles.tooFast tiles now c.key = false ∧
            wid = AddTiles.heldWid tiles c.key := by
        rw [hcollected.mem, h.tooFast, h.heldWid, and_comm (b := c ∉ requested), and_assoc]
      have hsent (part mode : Int) := (entriesFor_append s.sent _ part mode).trans
        (congrArg (entriesFor s.sent part mode ++ ·)
          (entriesFor_bucket (v := v) first entries part mode))
      simp only [List.append_assoc]
      constructor
      case tooFast =>
        intro c
        rw [hcollected.tooFast, h.tooFast, and_assoc, List.mem_append, not_or]
      case heldWid => exact fun key => (hcollected.heldWid key).trans (h.heldWid key)
      case has => exact fun key => (hcollected.has key).trans (h.has key)
      case nodup =>
        intro part mode
        rw [hsent, List.map_append, List.nodup_append]
        refine ⟨h.nodup part mode, ?_, ?_⟩
        · split
          · exact hcollected.nodup
          · exact List.nodup_nil
        · rintro c hc c' hc' rfl
          rcases List.mem_map.mp hc with ⟨⟨c, wid⟩, hbefore, rfl⟩
          rcases List.mem_map.mp hc' with ⟨⟨c', wid'⟩, hadded, heq⟩
          cases heq
          have hnew := ((hentry c wid').mp (List.mem_ite_nil_right.mp hadded).2).2.1
          exact hnew ((h.mem part mode c wid).mp hbefore).1
      case mem =>
        intro part mode c wid
        rw [hsent, List.mem_append, h.mem, List.mem_ite_nil_right, hentry, List.mem_append]
        have hsame (hc : c ∈ first :: rest) :
            RequestedFor v first part mode ↔ RequestedFor v c part mode := by
          have hlabel := hbucket first rfl c hc
          rw [RequestedFor, RequestedFor, hlabel.1, hlabel.2]
        constructor
        · rintro (⟨hc, hslow, hfor, hwid⟩ | ⟨hfor, hc, -, hslow, hwid⟩)
          · exact ⟨Or.inl hc, hslow, hfor, hwid⟩
          · exact ⟨Or.inr hc, hslow, (hsame hc).mp hfor, hwid⟩
        · rintro ⟨hc, hslow, hfor, hwid⟩
          by_cases hbefore : c ∈ requested
          · exact Or.inl ⟨hbefore, hslow, hfor, hwid⟩
          · have hc := hc.resolve_left hbefore
            exact Or.inr ⟨(hsame hc).mpr hfor, hc, hbefore, hslow, hwid⟩

theorem SentFor.foldl_sendPartMode {buckets : List (List TileCoordData)}
    (h : SentFor v now tiles requested s)
    (hhas : ∀ bucket ∈ buckets, ∀ c ∈ bucket, tiles.has c.key = true)
    (hbuckets : ∀ bucket ∈ buckets, Bucketed bucket) :
    SentFor v now tiles (requested ++ buckets.flatten)
      (buckets.foldl (AddTiles.sendPartMode v now) s) := by
  induction buckets generalizing requested s with
  | nil =>
      rw [List.flatten_nil, List.append_nil]
      exact h
  | cons bucket buckets ih =>
      rw [List.flatten_cons, ← List.append_assoc, List.foldl_cons]
      apply ih
      · exact h.sendPartMode (hhas bucket List.mem_cons_self) (hbuckets bucket List.mem_cons_self)
      · exact fun b hb => hhas b (List.mem_cons_of_mem _ hb)
      · exact fun b hb => hbuckets b (List.mem_cons_of_mem _ hb)

/-- Tiles are created for all that is queued. -/
theorem foldl_createTile (now : Int) (queue : List TileCoordData) (tiles : TileMap ι) :
    (∀ key, tooFast (queue.foldl createTile tiles) now key = tooFast tiles now key) ∧
      (∀ key, heldWid (queue.foldl createTile tiles) key = heldWid tiles key) ∧
      ∀ key, (tiles.has key = true ∨ ∃ c ∈ queue, c.key = key) →
        (queue.foldl createTile tiles).has key = true := by
  induction queue generalizing tiles with
  | nil => simp
  | cons coords queue ih =>
      rcases ih (createTile tiles coords) with ⟨hfast, hwid, hhas⟩
      refine ⟨fun key => ?_, fun key => ?_, fun key h => ?_⟩
      · exact (hfast key).trans (tooFast_createTile coords key)
      · exact (hwid key).trans (heldWid_createTile coords key)
      · apply hhas
        rw [List.exists_mem_cons_iff, ← or_assoc] at h
        exact h.imp_left (has_createTile coords)

end Sent

/-! ## What is requested -/

/-- The keys tell the first coordinate from what is shown: mode is a small number. -/
def KeysApart (coordsQueue : List TileCoordData) : Prop :=
  ∀ c ∈ coordsQueue.head?, pmKey c.part c.mode = pmKey v.selectedPart v.selectedMode →
    c.part = v.selectedPart ∧ c.mode = v.selectedMode

/-- So it is where a mode has its 8 bits and a part fits above them. -/
theorem keysApart_of_small {coordsQueue : List TileCoordData}
    (hshown : 0 ≤ v.selectedPart ∧ v.selectedPart < 2 ^ 23 ∧ 0 ≤ v.selectedMode ∧
      v.selectedMode < 2 ^ 8)
    (hqueued : ∀ c ∈ coordsQueue, 0 ≤ c.part ∧ c.part < 2 ^ 23 ∧ 0 ≤ c.mode ∧ c.mode < 2 ^ 8) :
    KeysApart v coordsQueue := by
  intro c hc heq
  have hsmall := hqueued c (List.mem_of_head? hc)
  have hshift {part : Int} (h : 0 ≤ part ∧ part < 2 ^ 23) :
      (part * 2 ^ 8).bmod (2 ^ 32) = part * 2 ^ 8 := Int.bmod_eq_of_le (by omega) (by omega)
  rw [pmKey, pmKey, hshift ⟨hsmall.1, hsmall.2.1⟩, hshift ⟨hshown.1, hshown.2.1⟩] at heq
  omega

section Requested

variable {v now} {tiles : TileMap ι} {moveTileRequests : List Key}

theorem bucketed_of_mem_partMode {queue rect bucket : List TileCoordData}
    (hlabel : ∀ c ∈ queue, ∀ c' ∈ queue, pmKey c.part c.mode = pmKey c'.part c'.mode →
      c.part = c'.part ∧ c.mode = c'.mode)
    (hrect : ∀ c ∈ rect, c ∈ queue) (h : bucket ∈ partMode rect) : Bucketed bucket := by
  rcases List.mem_map.mp h with ⟨key, -, rfl⟩
  intro first hfirst c hc
  have hfirst := List.mem_filter.mp (List.mem_of_head? hfirst)
  have hc := List.mem_filter.mp hc
  apply hlabel c (hrect c hc.1) first (hrect first hfirst.1)
  exact (of_decide_eq_true hc.2).trans (of_decide_eq_true hfirst.2).symm

/-- The messages are for what is left in the queue, with the ids that are held for it. -/
theorem mem_entriesFor_addTiles (now : Int) (tiles : TileMap ι) (moveTileRequests : List Key)
    {first : TileCoordData} {rest : List TileCoordData}
    (hkeys : KeysApart v (first :: rest)) (part mode : Int) :
    let entries :=
      entriesFor (addTiles v now tiles moveTileRequests (first :: rest)).1.sent part mode
    (entries.map Prod.fst).Nodup ∧
      ∀ c wid, (c, wid) ∈ entries ↔
        (c = first ∨ c ∈ rest ∧ Relevant v tiles moveTileRequests c) ∧
          tooFast tiles now c.key = false ∧ RequestedFor v c part mode ∧
          wid = heldWid tiles c.key := by
  have hqueue (c : TileCoordData) :
      c ∈ (removeIrrelevantsFromCoordsQueue v tiles moveTileRequests (first :: rest)).1 ↔
        c = first ∨ c ∈ rest ∧ Relevant v tiles moveTileRequests c := mem_removeIrrelevants
  rw [addTiles]
  generalize removeIrrelevantsFromCoordsQueue v tiles moveTileRequests (first :: rest) = result
    at hqueue
  rcases result with ⟨queue, moveTileRequests'⟩
  have hlabel : ∀ c ∈ queue, ∀ c' ∈ queue, pmKey c.part c.mode = pmKey c'.part c'.mode →
      c.part = c'.part ∧ c.mode = c'.mode := by
    have hshown := hkeys first rfl
    intro c hc c' hc' heq
    rcases (hqueue c).mp hc with rfl | ⟨-, h⟩ <;> rcases (hqueue c').mp hc' with rfl | ⟨-, h'⟩
    · exact ⟨rfl, rfl⟩
    · rw [h'.part, h'.mode] at heq ⊢
      exact hshown heq
    · rw [h.part, h.mode] at heq ⊢
      have hlabel := hshown heq.symm
      exact ⟨hlabel.1.symm, hlabel.2.symm⟩
    · rw [h.part, h.mode, h'.part, h'.mode]
      exact ⟨rfl, rfl⟩
  rcases foldl_createTile now queue tiles with ⟨hfast, hwid, hhas⟩
  dsimp only
  generalize queue.foldl createTile tiles = created at hfast hwid hhas
  have hmem (c : TileCoordData) :
      c ∈ ((rectangles queue).flatMap partMode).flatten ↔ c ∈ queue := by
    rw [← mem_rectangles queue, List.mem_flatten, List.mem_flatten]
    constructor
    · rintro ⟨bucket, hbucket, hc⟩
      rcases List.mem_flatMap.mp hbucket with ⟨rect, hrect, hbucket⟩
      exact ⟨rect, hrect, (mem_partMode rect c).mp (List.mem_flatten_of_mem hbucket hc)⟩
    · rintro ⟨rect, hrect, hc⟩
      rcases List.mem_flatten.mp ((mem_partMode rect c).mpr hc) with ⟨bucket, hbucket, hc⟩
      exact ⟨bucket, List.mem_flatMap.mpr ⟨rect, hrect, hbucket⟩, hc⟩
  have hstart : SentFor v now created [] ⟨created, []⟩ := by
    constructor <;> simp [entriesFor]
  have hcreated : ∀ bucket ∈ (rectangles queue).flatMap partMode, ∀ c ∈ bucket,
      created.has c.key = true := by
    intro bucket hbucket c hc
    exact hhas _ (Or.inr ⟨c, (hmem c).mp (List.mem_flatten_of_mem hbucket hc), rfl⟩)
  have hbuckets : ∀ bucket ∈ (rectangles queue).flatMap partMode, Bucketed bucket := by
    intro bucket hbucket
    rcases List.mem_flatMap.mp hbucket with ⟨rect, hrect, hbucket⟩
    apply bucketed_of_mem_partMode hlabel _ hbucket
    intro c hc
    exact (mem_rectangles queue c).mp (List.mem_flatten_of_mem hrect hc)
  have hsent := hstart.foldl_sendPartMode hcreated hbuckets
  rw [List.foldl_flatMap, List.nil_append] at hsent
  refine ⟨hsent.nodup part mode, fun c wid => ?_⟩
  have hentry := hsent.mem part mode c wid
  rw [hmem, hqueue, hfast, hwid] at hentry
  exact hentry

/-- What is wanted is requested exactly when the first coordinate, which is not looked at, is
relevant or was just requested, and in Writer the ids for mode 2 are those for mode 1. -/
theorem exactlyWanted_iff {coordsQueue : List TileCoordData} (hkeys : KeysApart v coordsQueue) :
    ExactlyWanted v now tiles moveTileRequests coordsQueue ↔
      (∀ first ∈ coordsQueue.head?, tooFast tiles now first.key = false →
        Relevant v tiles moveTileRequests first) ∧
      (v.isWriter = true → v.selectedMode = 2 → ∀ c ∈ coordsQueue,
        Wanted v now tiles moveTileRequests c →
          heldWid tiles { c with mode := 1 }.key = heldWid tiles c.key) := by
  cases coordsQueue with
  | nil =>
      constructor
      · exact fun _ => ⟨by simp, by simp⟩
      · intro _ part mode
        exact ⟨List.nodup_nil, by simp [addTiles, removeIrrelevantsFromCoordsQueue, rectangles,
          carve, entriesFor]⟩
  | cons first rest =>
      have hentries := mem_entriesFor_addTiles now tiles moveTileRequests hkeys
      constructor
      · intro hexact
        constructor
        · rintro _ ⟨⟩ hslow
          have hfor : RequestedFor v first first.part first.mode := ⟨rfl, Or.inl rfl⟩
          have hentry := ((hentries first.part first.mode).2 first _).mpr
            ⟨Or.inl rfl, hslow, hfor, rfl⟩
          exact (((hexact first.part first.mode).2 first _).mp hentry).2.1.toRelevant
        · intro hwriter hmode c hc hwanted
          have hfor : RequestedFor v c c.part 1 :=
            ⟨rfl, Or.inr ⟨hwriter, hwanted.mode.trans hmode, rfl⟩⟩
          have hentry := ((hentries c.part 1).2 c _).mpr
            ⟨(List.mem_cons.mp hc).imp_right fun h => ⟨h, hwanted.toRelevant⟩, hwanted.notTooFast,
              hfor, rfl⟩
          exact (((hexact c.part 1).2 c _).mp hentry).2.2.2.symm
      · rintro ⟨hfirst, hwids⟩ part mode
        refine ⟨(hentries part mode).1, fun c wid => ?_⟩
        have hqueue : (c = first ∨ c ∈ rest ∧ Relevant v tiles moveTileRequests c) ∧
            tooFast tiles now c.key = false ↔
              c ∈ first :: rest ∧ Wanted v now tiles moveTileRequests c := by
          constructor
          · rintro ⟨rfl | ⟨hc, h⟩, hslow⟩
            · exact ⟨List.mem_cons_self, hfirst c rfl hslow, hslow⟩
            · exact ⟨List.mem_cons_of_mem _ hc, h, hslow⟩
          · rintro ⟨hc, h⟩
            exact ⟨(List.mem_cons.mp hc).imp_right fun hc => ⟨hc, h.toRelevant⟩, h.notTooFast⟩
        rw [(hentries part mode).2, ← and_assoc, hqueue, and_assoc]
        apply and_congr_right
        intro hc
        apply and_congr_right
        intro hwanted
        apply and_congr_right
        rintro ⟨-, hsame | ⟨hwriter, htwo, hone⟩⟩
        · rw [← hsame]
        · rw [hone, hwids hwriter (hwanted.mode.symm.trans htwo) c hc hwanted]

theorem exactlyWanted_new :
    ExactlyWanted ⟨0, 0, false, true⟩ 0 (OrderedMap.empty : TileMap Unit) []
      [⟨0, 0, 10, 0, 0⟩, ⟨256, 0, 10, 0, 0⟩] := by
  apply (exactlyWanted_iff _).mpr
  · constructor
    · rintro _ ⟨⟩ -
      exact ⟨rfl, rfl, rfl, by simp⟩
    · intro hwriter
      cases hwriter
  · rintro _ ⟨⟩ -
    exact ⟨rfl, rfl⟩

/-- A tile that is there is requested again, as it is the first in the queue; and the id for a tile
in mode 2 is sent for the one in mode 1. -/
theorem not_exactlyWanted :
    (∃ tiles : TileMap Unit,
      ¬ExactlyWanted ⟨0, 0, false, false⟩ 0 tiles [] [⟨0, 0, 10, 0, 0⟩]) ∧
    ∃ tiles : TileMap Unit,
      ¬ExactlyWanted ⟨0, 2, true, false⟩ 0 tiles [] [⟨0, 0, 10, 0, 2⟩] := by
  constructor
  · let c : TileCoordData := ⟨0, 0, 10, 0, 0⟩
    let t : Tile Unit := { (.new c : Tile Unit) with image := some (), wireId := 5 }
    refine ⟨OrderedMap.empty.set c.key ⟨t, none⟩, fun h => ?_⟩
    have hwanted := (((h 0 0).2 c 5).mp (by decide +kernel)).2.1
    exact absurd hwanted.needsFetch (by decide +kernel)
  · let c : TileCoordData := ⟨0, 0, 10, 0, 2⟩
    let t : Tile Unit := { (.new c : Tile Unit) with wireId := 7 }
    refine ⟨OrderedMap.empty.set c.key ⟨t, none⟩, fun h => ?_⟩
    have hwid := (((h 0 1).2 c 7).mp (by decide +kernel)).2.2.2
    exact absurd hwid (by decide +kernel)

end Requested

end AddTiles

end CoolOnline.Browser
