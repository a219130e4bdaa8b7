import CoolOnline.Library.History
import CoolOnline.Wsd.TileInvalidation

/-! # The size of the tile cache

`TileCache` of `wsd/TileCache.cpp` with the entries that `_cache[desc]` inserts without a tile and
with the steps of the size arithmetic: it is the tile cache whose size is that of its tiles.
-/

namespace CoolOnline.Wsd

/-! ## The map of tiles -/

/-- The map from descriptions to tiles; a tile may be null. -/
abbrev TileMap := List (TileDesc × Option TileData)

namespace TileMap

def find (m : TileMap) (desc : TileDesc) : Option (Option TileData) :=
  (m.find? fun entry => cacheKey entry.1 == cacheKey desc).map Prod.snd

/-- `_cache[desc]`, which inserts a null tile where there is no entry. -/
def subscript (m : TileMap) (desc : TileDesc) : Option TileData × TileMap :=
  match m.find desc with
  | some tile => (tile, m)
  | none => (none, m ++ [(desc, none)])

/-- The tile of an entry is set, or the tile it points to is changed. -/
def assign (m : TileMap) (desc : TileDesc) (tile : TileData) : TileMap :=
  m.map fun entry => if cacheKey entry.1 == cacheKey desc then (entry.1, some tile) else entry

def erase (m : TileMap) (desc : TileDesc) : TileMap :=
  m.filter fun entry => cacheKey entry.1 != cacheKey desc

end TileMap

/-! ## The cache -/

structure SizedCache (σ : Type) where
  cache : TileMap
  tilesBeingRendered : TileKey → Option (TileBeingRendered σ)
  cacheSize : Nat
  maxCacheSize : Nat
  dontCache : Bool

/-- `_cacheSize -= size`; below zero it would wrap. -/
def decrease (cacheSize size : Nat) : Option Nat :=
  if size ≤ cacheSize then some (cacheSize - size) else none

/-- `_cacheSize += change`; below zero it would wrap. -/
def changeBy (cacheSize : Nat) (change : Int) : Option Nat :=
  if 0 ≤ cacheSize + change then some (cacheSize + change).toNat else none

namespace SizedCache

variable {σ : Type} (c : SizedCache σ)

/-- The constructor. -/
def new (dontCache : Bool) : SizedCache σ := ⟨[], fun _ => none, 0, 1024 * 1024, dontCache⟩

def clear : SizedCache σ := { c with cache := [], cacheSize := 0 }

/-- The wire ids and sizes of the tiles; a null tile has none. -/
def widSizes : Option (List (Nat × Nat)) :=
  c.cache.mapM fun (desc, tile) => tile.map fun tile => (desc.wireId, TileCache.itemCacheSize tile)

/-- The wire id up to which tiles go. -/
def maxToRemove (wids : List (Nat × Nat)) : Nat :=
  let wids := wids.mergeSort fun a b => a.1 ≤ b.1
  let front := (wids.head?.map Prod.fst).getD 0
  let back := (wids.getLast?.map Prod.fst).getD 0
  if 256 * 256 * 256 < back - front then back
  else TileCache.removeUpTo (c.maxCacheSize / 4) wids 0 front

/-- The loop that cleans tiles out. -/
def cleanOut (maxToRemove : Nat) (isRendered : TileKey → Bool) :
    TileMap → Nat → Option (TileMap × Nat)
  | [], cacheSize => some ([], cacheSize)
  | (desc, tile) :: rest, cacheSize =>
      let keep := (cleanOut maxToRemove isRendered rest cacheSize).map fun (left, cacheSize) =>
        ((desc, tile) :: left, cacheSize)
      if desc.wireId ≤ maxToRemove then
        if isRendered (cacheKey desc) then keep
        else
          tile.bind fun tile =>
          (decrease cacheSize (TileCache.itemCacheSize tile)).bind fun cacheSize =>
          cleanOut maxToRemove isRendered rest cacheSize
      else keep

def ensureCacheSize : Option (SizedCache σ) :=
  if c.cacheSize < c.maxCacheSize ∨ c.cache.length < 2 then some c
  else
    c.widSizes.bind fun wids =>
    (cleanOut (c.maxToRemove wids) (fun key => (c.tilesBeingRendered key).isSome) c.cache
      c.cacheSize).map fun (cache, cacheSize) => { c with cache := cache, cacheSize := cacheSize }

def setMaxCacheSize (maxCacheSize : Nat) : Option (SizedCache σ) :=
  { c with maxCacheSize := maxCacheSize }.ensureCacheSize

def saveDataToCache (desc : TileDesc) (data : Payload) :
    Option (Option TileData × SizedCache σ) :=
  if c.dontCache then some (some (TileData.new desc.wireId data), c)
  else
    c.ensureCacheSize.bind fun c =>
    match c.cache.subscript desc with
    | (none, cache) =>
        if TileData.isKeyframe data then
          let tile := TileData.new desc.wireId data
          some (some tile,
            { c with
              cache := cache.assign desc tile
              cacheSize := c.cacheSize + TileCache.itemCacheSize tile })
        else some (none, { c with cache := cache.erase desc })
    | (some tile, cache) =>
        let (tile, change) := tile.appendBlob desc.wireId data
        (changeBy c.cacheSize change).map fun cacheSize =>
          (some tile, { c with cache := cache.assign desc tile, cacheSize := cacheSize })

def forgetTileBeingRendered (descForKitReply : TileDesc) (t : TileBeingRendered σ) :
    SizedCache σ :=
  if t.version ≤ descForKitReply.ver then
    { c with tilesBeingRendered := Function.update c.tilesBeingRendered (cacheKey t.tile) none }
  else c

/-- The cache after a reply of the Kit, and the sessions that are sent the tile. -/
def saveTileAndNotify (desc : TileDesc) (data : Payload) :
    Option (SizedCache σ × List (σ × TileData)) :=
  let tileBeingRendered := c.tilesBeingRendered (cacheKey desc)
  (c.saveDataToCache desc data).map fun (tile, c) =>
    match tileBeingRendered with
    | none => (c, [])
    | some t =>
        let notified := match tile with
          | some tile => t.subscribers.map fun session => (session, tile)
          | none => []
        (c.forgetTileBeingRendered desc t, notified)

/-- A null tile cannot be invalidated. -/
def invalidateTiles (m : Invalidation) (canonicalViewId : Int) : Option (SizedCache σ) :=
  (c.cache.mapM fun entry =>
    if m.intersects canonicalViewId entry.1 then
      entry.2.map fun tile => (entry.1, some tile.invalidate)
    else some entry).map fun cache => { c with cache := cache }

variable [DecidableEq σ]

def subscribeToTileRendering (tile : TileDesc) (subscriber : σ) (now : Int) : SizedCache σ :=
  let set (t : TileBeingRendered σ) : SizedCache σ :=
    { c with tilesBeingRendered := Function.update c.tilesBeingRendered (cacheKey tile) (some t) }
  match c.tilesBeingRendered (cacheKey tile) with
  | none => set ⟨[subscriber], now, tile⟩
  | some t =>
      if subscriber ∈ t.subscribers then set (t.setVersion tile.ver)
      else set { t with subscribers := t.subscribers ++ [subscriber] }

end SizedCache

inductive CacheOp (σ : Type) where
  | saveTileAndNotify (desc : TileDesc) (data : Payload)
  | setMaxCacheSize (maxCacheSize : Nat)
  | invalidateTiles (m : Invalidation) (canonicalViewId : Int)
  | clear
  | subscribe (tile : TileDesc) (subscriber : σ) (now : Int)
  | forget (descForKitReply : TileDesc)

def SizedCache.step {σ : Type} [DecidableEq σ] (c : SizedCache σ) :
    CacheOp σ → Option (SizedCache σ)
  | .saveTileAndNotify desc data => (c.saveTileAndNotify desc data).map Prod.fst
  | .setMaxCacheSize maxCacheSize => c.setMaxCacheSize maxCacheSize
  | .invalidateTiles m canonicalViewId => c.invalidateTiles m canonicalViewId
  | .clear => some c.clear
  | .subscribe tile subscriber now => some (c.subscribeToTileRendering tile subscriber now)
  | .forget descForKitReply =>
      some (match c.tilesBeingRendered (cacheKey descForKitReply) with
        | none => c
        | some t => c.forgetTileBeingRendered descForKitReply t)

/-! ## The tile cache that it refines -/

namespace TileCache

variable {σ : Type} (c : TileCache σ)

def clear : TileCache σ := { c with cache := [], cacheSize := 0 }

def setMaxCacheSize (maxCacheSize : Nat) : TileCache σ :=
  { c with maxCacheSize := maxCacheSize }.ensureCacheSize

def step [DecidableEq σ] : CacheOp σ → TileCache σ
  | .saveTileAndNotify desc data => (c.saveTileAndNotify desc data).1
  | .setMaxCacheSize maxCacheSize => c.setMaxCacheSize maxCacheSize
  | .invalidateTiles m canonicalViewId => (c.invalidateTiles m canonicalViewId).1
  | .clear => c.clear
  | .subscribe tile subscriber now => (c.subscribeToTileRendering tile subscriber now).1
  | .forget descForKitReply =>
      match c.findTileBeingRendered descForKitReply with
      | none => c
      | some t => c.forgetTileBeingRendered descForKitReply t

/-- The size of the tiles. -/
def totalSize (cache : List (TileDesc × TileData)) : Nat :=
  (cache.map fun entry => itemCacheSize entry.2).sum

/-- There is one entry for a tile, and the size is that of the entries. -/
structure Accounted : Prop where
  keys : (c.cache.map fun entry => cacheKey entry.1).Nodup
  size : c.cacheSize = totalSize c.cache

theorem accounted_new (dontCache : Bool) : Accounted (new dontCache : TileCache σ) :=
  ⟨List.nodup_nil, rfl⟩

theorem totalSize_cons (entry : TileDesc × TileData) (cache : List (TileDesc × TileData)) :
    totalSize (entry :: cache) = itemCacheSize entry.2 + totalSize cache := by
  rw [totalSize, List.map_cons, List.sum_cons, totalSize]

theorem totalSize_append (cache cache' : List (TileDesc × TileData)) :
    totalSize (cache ++ cache') = totalSize cache + totalSize cache' := by
  rw [totalSize, List.map_append, List.sum_append, totalSize, totalSize]

theorem totalSize_filter (p : TileDesc × TileData → Bool) (cache : List (TileDesc × TileData)) :
    totalSize (cache.filter p) + totalSize (cache.filter fun entry => !p entry) =
      totalSize cache := by
  induction cache with
  | nil => rfl
  | cons entry cache ih =>
      rw [totalSize_cons, ← ih]
      cases hp : p entry with
      | true =>
          rw [List.filter_cons_of_pos hp, List.filter_cons_of_neg (by simp [hp]), totalSize_cons,
            Nat.add_assoc]
      | false =>
          rw [List.filter_cons_of_neg (by simp [hp]), List.filter_cons_of_pos (by simp [hp]),
            totalSize_cons, Nat.add_left_comm]

variable {c} {desc : TileDesc} {tile : TileData}

theorem not_mem_keys_of_findTile (h : c.findTile desc = none) :
    cacheKey desc ∉ c.cache.map fun entry => cacheKey entry.1 := by
  intro hmem
  have hnone := List.find?_eq_none.mp (Option.map_eq_none_iff.mp h)
  rcases List.mem_map.mp hmem with ⟨entry, hentry, hkey⟩
  exact hnone entry hentry (by simpa using hkey)

/-- The cached tiles with another one in an entry. -/
def replaced (cache : List (TileDesc × TileData)) (desc : TileDesc) (tile : TileData) :
    List (TileDesc × TileData) :=
  cache.map fun entry => if cacheKey entry.1 == cacheKey desc then (entry.1, tile) else entry

theorem keys_replaced (cache : List (TileDesc × TileData)) (desc : TileDesc) (tile : TileData) :
    (replaced cache desc tile).map (fun entry => cacheKey entry.1) =
      cache.map fun entry => cacheKey entry.1 := by
  rw [replaced, List.map_map]
  apply List.map_congr_left
  intro entry _
  simp only [Function.comp_apply]
  split <;> rfl

theorem replaced_of_not_mem {cache : List (TileDesc × TileData)}
    (h : cacheKey desc ∉ cache.map fun entry => cacheKey entry.1) (tile : TileData) :
    replaced cache desc tile = cache := by
  rw [replaced]
  conv_rhs => rw [← List.map_id cache]
  apply List.map_congr_left
  intro entry hentry
  have hne : cacheKey entry.1 ≠ cacheKey desc := fun heq =>
    h (heq ▸ List.mem_map_of_mem hentry)
  rw [if_neg (by simpa using hne), id_eq]

/-- Where there is one entry for the tile, the sizes differ by that of the tile. -/
theorem totalSize_replaced {cache : List (TileDesc × TileData)}
    (hkeys : (cache.map fun entry => cacheKey entry.1).Nodup)
    (hfind : (cache.find? fun entry => cacheKey entry.1 == cacheKey desc).map Prod.snd = some tile)
    (tile' : TileData) :
    totalSize (replaced cache desc tile') + itemCacheSize tile =
      totalSize cache + itemCacheSize tile' := by
  induction cache with
  | nil => cases hfind
  | cons entry cache ih =>
      rw [List.map_cons, List.nodup_cons] at hkeys
      by_cases hkey : (cacheKey entry.1 == cacheKey desc) = true
      · simp only [List.find?_cons, hkey] at hfind
        cases hfind
        have hrest : replaced cache desc tile' = cache := by
          apply replaced_of_not_mem
          rw [← eq_of_beq hkey]
          exact hkeys.1
        have hcons : replaced (entry :: cache) desc tile' = (entry.1, tile') :: cache := by
          conv_rhs => rw [← hrest]
          rw [replaced, List.map_cons, if_pos hkey]
          rfl
        rw [hcons, totalSize_cons, totalSize_cons]
        dsimp only
        omega
      · simp only [List.find?_cons, hkey] at hfind
        have hrest := ih hkeys.2 hfind
        have hcons : replaced (entry :: cache) desc tile' = entry :: replaced cache desc tile' := by
          rw [replaced, List.map_cons, if_neg hkey]
          rfl
        rw [hcons, totalSize_cons, totalSize_cons]
        omega

/-! ## The operations keep the size -/

section Accounted

variable {c : TileCache σ}

theorem Accounted.ensureCacheSize (h : c.Accounted) : c.ensureCacheSize.Accounted := by
  rw [TileCache.ensureCacheSize]
  split
  · exact h
  · constructor
    · exact h.keys.sublist (List.filter_sublist.map _)
    · have hsplit := totalSize_filter c.isKept c.cache
      have hsize := h.size
      change c.cacheSize - (totalSize (c.cache.filter fun entry => !c.isKept entry) : Int) =
        totalSize (c.cache.filter c.isKept)
      omega

theorem Accounted.setMaxCacheSize (h : c.Accounted) (maxCacheSize : Nat) :
    (c.setMaxCacheSize maxCacheSize).Accounted :=
  Accounted.ensureCacheSize (c := { c with maxCacheSize := maxCacheSize }) ⟨h.keys, h.size⟩

theorem itemCacheSize_appendBlob (t : TileData) (id : Nat) (data : Payload) :
    (itemCacheSize (t.appendBlob id data).1 : Int) =
      itemCacheSize t + (t.appendBlob id data).2 := by
  simp only [itemCacheSize, TileData.appendBlob]
  omega

theorem Accounted.saveDataToCache (h : c.Accounted) (desc : TileDesc) (data : Payload) :
    (c.saveDataToCache desc data).2.Accounted := by
  rw [TileCache.saveDataToCache]
  split
  · exact h
  · have hensured := h.ensureCacheSize
    dsimp only
    cases hfind : c.ensureCacheSize.findTile desc with
    | none =>
        cases hkey : TileData.isKeyframe data with
        | false => exact hensured
        | true =>
            have hnew := not_mem_keys_of_findTile hfind
            constructor
            · change (List.map _ (_ ++ [(desc, _)])).Nodup
              rw [List.map_append, List.nodup_append]
              refine ⟨hensured.keys, List.pairwise_singleton _ _, ?_⟩
              intro key hmem key' hmem' heq
              rw [List.map_singleton, List.mem_singleton] at hmem'
              apply hnew
              rw [← hmem', ← heq]
              exact hmem
            · change c.ensureCacheSize.cacheSize + (itemCacheSize _ : Int) = totalSize (_ ++ [_])
              rw [totalSize_append, totalSize_cons, hensured.size, Int.natCast_add,
                Int.natCast_add]
              rfl
    | some tile =>
        constructor
        · change (List.map _ (replaced _ desc _)).Nodup
          rw [keys_replaced]
          exact hensured.keys
        · have hreplaced := totalSize_replaced hensured.keys hfind
            (tile.appendBlob desc.wireId data).1
          have hitem := itemCacheSize_appendBlob tile desc.wireId data
          have hsize := hensured.size
          change c.ensureCacheSize.cacheSize + (tile.appendBlob desc.wireId data).2 =
            totalSize (replaced _ desc (tile.appendBlob desc.wireId data).1)
          omega

theorem Accounted.forgetTileBeingRendered (h : c.Accounted) (desc : TileDesc)
    (t : TileBeingRendered σ) : (c.forgetTileBeingRendered desc t).Accounted := by
  rw [TileCache.forgetTileBeingRendered]
  split
  · exact ⟨h.keys, h.size⟩
  · exact h

theorem Accounted.saveTileAndNotify (h : c.Accounted) (desc : TileDesc) (data : Payload) :
    (c.saveTileAndNotify desc data).1.Accounted := by
  have hsaved := h.saveDataToCache desc data
  simp only [TileCache.saveTileAndNotify]
  split
  · exact hsaved
  · exact hsaved.forgetTileBeingRendered desc _

theorem Accounted.subscribeToTileRendering [DecidableEq σ] (h : c.Accounted) (tile : TileDesc)
    (subscriber : σ) (now : Int) :
    (c.subscribeToTileRendering tile subscriber now).1.Accounted := by
  simp only [TileCache.subscribeToTileRendering]
  split
  · exact ⟨h.keys, h.size⟩
  · split <;> exact ⟨h.keys, h.size⟩

theorem Accounted.invalidateTiles (h : c.Accounted) (m : Invalidation) (canonicalViewId : Int) :
    (c.invalidateTiles m canonicalViewId).1.Accounted := by
  constructor
  · change (List.map _ (List.map _ c.cache)).Nodup
    rw [List.map_map]
    convert h.keys using 2
    funext entry
    simp only [Function.comp_apply]
    split <;> rfl
  · change c.cacheSize = ((List.map _ (List.map _ c.cache)).sum : Nat)
    rw [List.map_map, h.size, totalSize]
    congr 3
    funext entry
    simp only [Function.comp_apply]
    split <;> rfl

theorem Accounted.step [DecidableEq σ] (h : c.Accounted) (op : CacheOp σ) :
    (c.step op).Accounted := by
  cases op with
  | saveTileAndNotify desc data => exact h.saveTileAndNotify desc data
  | setMaxCacheSize maxCacheSize => exact h.setMaxCacheSize maxCacheSize
  | invalidateTiles m canonicalViewId => exact h.invalidateTiles m canonicalViewId
  | clear => exact ⟨List.nodup_nil, rfl⟩
  | subscribe tile subscriber now => exact h.subscribeToTileRendering tile subscriber now
  | forget descForKitReply =>
      rw [TileCache.step]
      split
      · exact h
      · exact h.forgetTileBeingRendered descForKitReply _

end Accounted

/-! ## The cache follows -/

/-- The tile cache as it is stored. -/
def stored : SizedCache σ where
  cache := c.cache.map fun entry => (entry.1, some entry.2)
  tilesBeingRendered := c.tilesBeingRendered
  cacheSize := c.cacheSize.toNat
  maxCacheSize := c.maxCacheSize
  dontCache := c.dontCache

/-- The loop keeps what it is to keep, and takes off the size of the rest. -/
theorem cleanOut_eq {maxToRemove : Nat} {isRendered : TileKey → Bool}
    {isKept : TileDesc × TileData → Bool}
    (hkeep : ∀ entry, isKept entry =
      (decide (maxToRemove < entry.1.wireId) || isRendered (cacheKey entry.1)))
    (cache : List (TileDesc × TileData)) {cacheSize : Nat} (h : totalSize cache ≤ cacheSize) :
    SizedCache.cleanOut maxToRemove isRendered (cache.map fun entry => (entry.1, some entry.2))
        cacheSize =
      some ((cache.filter isKept).map fun entry => (entry.1, some entry.2),
        cacheSize - totalSize (cache.filter fun entry => !isKept entry)) := by
  induction cache generalizing cacheSize with
  | nil => rfl
  | cons entry cache ih =>
      rw [totalSize_cons] at h
      rw [List.map_cons, SizedCache.cleanOut]
      cases hkept : isKept entry with
      | true =>
          rw [List.filter_cons_of_pos hkept, List.filter_cons_of_neg (by simp [hkept]),
            ih (by omega), Option.map_some]
          simp only [hkeep, Bool.or_eq_true, decide_eq_true_eq] at hkept
          split
          case isTrue hwid =>
            rw [if_pos (hkept.resolve_left (by omega))]
            rfl
          case isFalse => rfl
      | false =>
          rw [List.filter_cons_of_neg (by simp [hkept]), List.filter_cons_of_pos (by simp [hkept])]
          simp only [hkeep, Bool.or_eq_false_iff, decide_eq_false_iff_not, Nat.not_lt] at hkept
          rw [if_pos hkept.1, if_neg (by simp [hkept.2]), Option.bind_some, decrease,
            if_pos (by omega), Option.bind_some, ih (by omega), totalSize_cons, Nat.sub_sub]

theorem widSizes_stored :
    c.stored.widSizes =
      some (c.cache.map fun (desc, tile) => (desc.wireId, itemCacheSize tile)) := by
  rw [SizedCache.widSizes, stored]
  induction c.cache with
  | nil => rfl
  | cons entry cache ih =>
      rw [List.map_cons, List.mapM_cons, ih]
      rfl

theorem toNat_cacheSize {c : TileCache σ} (h : c.Accounted) :
    c.cacheSize.toNat = totalSize c.cache := by
  rw [h.size, Int.toNat_natCast]

theorem ensureCacheSize_stored {c : TileCache σ} (h : c.Accounted) :
    c.stored.ensureCacheSize = some c.ensureCacheSize.stored := by
  have hsize := toNat_cacheSize h
  have hfull : (c.stored.cacheSize < c.stored.maxCacheSize ∨ c.stored.cache.length < 2) ↔
      (c.cacheSize < c.maxCacheSize ∨ c.cache.length < 2) := by
    have hcast := h.size
    simp only [stored, List.length_map]
    omega
  by_cases hsmall : c.cacheSize < c.maxCacheSize ∨ c.cache.length < 2
  · rw [SizedCache.ensureCacheSize, if_pos (hfull.mpr hsmall), TileCache.ensureCacheSize,
      if_pos hsmall]
  · rw [SizedCache.ensureCacheSize, if_neg (mt hfull.mp hsmall), TileCache.ensureCacheSize,
      if_neg hsmall, widSizes_stored, Option.bind_some]
    have hclean : SizedCache.cleanOut c.maxToRemove
        (fun key => (c.stored.tilesBeingRendered key).isSome) c.stored.cache c.stored.cacheSize =
          some (c.cache.filter c.isKept |>.map fun entry => (entry.1, some entry.2),
            (c.cacheSize - (totalSize (c.cache.filter fun entry => !c.isKept entry) :
              Int)).toNat) := by
      rw [Int.toNat_sub']
      apply cleanOut_eq
      · intro entry
        rfl
      · exact hsize.ge
    change Option.map _ (SizedCache.cleanOut c.maxToRemove _ c.stored.cache c.stored.cacheSize) = _
    rw [hclean]
    rfl

theorem find_stored (desc : TileDesc) :
    c.stored.cache.find desc = (c.findTile desc).map some := by
  rw [TileMap.find, findTile, stored, List.find?_map, Option.map_map, Option.map_map]
  rfl

theorem assign_stored (desc : TileDesc) (tile : TileData) :
    c.stored.cache.assign desc tile =
      (replaced c.cache desc tile).map fun entry => (entry.1, some entry.2) := by
  rw [TileMap.assign, stored, replaced, List.map_map, List.map_map]
  apply List.map_congr_left
  intro entry _
  simp only [Function.comp_apply]
  split <;> rfl

section New

variable {desc : TileDesc} (hnew : c.findTile desc = none)

include hnew

theorem key_ne_of_findTile : ∀ entry ∈ c.stored.cache, cacheKey entry.1 ≠ cacheKey desc := by
  intro entry hentry hkey
  rcases List.mem_map.mp hentry with ⟨entry', hentry', rfl⟩
  apply not_mem_keys_of_findTile hnew
  rw [← hkey]
  exact List.mem_map_of_mem hentry'

theorem subscript_stored :
    c.stored.cache.subscript desc = (none, c.stored.cache ++ [(desc, none)]) := by
  rw [TileMap.subscript, find_stored, hnew]
  rfl

theorem assign_append (tile : TileData) :
    TileMap.assign (c.stored.cache ++ [(desc, none)]) desc tile =
      c.stored.cache ++ [(desc, some tile)] := by
  rw [TileMap.assign, List.map_append, List.map_singleton, if_pos (beq_self_eq_true _)]
  congr 1
  conv_rhs => rw [← List.map_id c.stored.cache]
  apply List.map_congr_left
  intro entry hentry
  rw [if_neg (by simpa using key_ne_of_findTile hnew entry hentry), id_eq]

theorem erase_append :
    TileMap.erase (c.stored.cache ++ [(desc, none)]) desc = c.stored.cache := by
  rw [TileMap.erase, List.filter_append, List.filter_eq_self.mpr]
  · simp
  · intro entry hentry
    simpa using key_ne_of_findTile hnew entry hentry

end New

theorem saveDataToCache_stored {c : TileCache σ} (h : c.Accounted) (desc : TileDesc)
    (data : Payload) :
    c.stored.saveDataToCache desc data =
      some ((c.saveDataToCache desc data).1, (c.saveDataToCache desc data).2.stored) := by
  rw [SizedCache.saveDataToCache, TileCache.saveDataToCache]
  by_cases hcache : c.dontCache = true
  · rw [if_pos (show c.stored.dontCache = true from hcache), if_pos hcache]
  · rw [if_neg (show ¬c.stored.dontCache = true from hcache), if_neg hcache,
      ensureCacheSize_stored h, Option.bind_some]
    have hensured := h.ensureCacheSize
    generalize c.ensureCacheSize = c at hensured
    have hsize := toNat_cacheSize hensured
    have hcast := hensured.size
    dsimp only
    cases hfind : c.findTile desc with
    | none =>
        rw [subscript_stored hfind]
        cases hkey : TileData.isKeyframe data with
        | false =>
            simp only [Bool.false_eq_true, if_false, erase_append hfind]
        | true =>
            simp only [if_true, assign_append hfind]
            have hgrown : c.cacheSize.toNat + itemCacheSize (TileData.new desc.wireId data) =
                (c.cacheSize + (itemCacheSize (TileData.new desc.wireId data) : Int)).toNat := by
              omega
            congr 2
            rw [stored, stored, List.map_append]
            congr 1
    | some tile =>
        have hsubscript : c.stored.cache.subscript desc = (some tile, c.stored.cache) := by
          rw [TileMap.subscript, find_stored, hfind]
          rfl
        have hitem := itemCacheSize_appendBlob tile desc.wireId data
        have hreplaced := totalSize_replaced hensured.keys hfind
          (tile.appendBlob desc.wireId data).1
        rw [hsubscript]
        dsimp only
        have hstored : (c.stored.cacheSize : Int) = c.cacheSize := by
          change (c.cacheSize.toNat : Int) = _
          omega
        rw [changeBy, hstored, if_pos (by omega), assign_stored, Option.map_some]
        rfl

theorem forgetTileBeingRendered_stored (desc : TileDesc) (t : TileBeingRendered σ) :
    c.stored.forgetTileBeingRendered desc t = (c.forgetTileBeingRendered desc t).stored := by
  rw [SizedCache.forgetTileBeingRendered, TileCache.forgetTileBeingRendered]
  split <;> rfl

theorem saveTileAndNotify_stored {c : TileCache σ} (h : c.Accounted) (desc : TileDesc)
    (data : Payload) :
    c.stored.saveTileAndNotify desc data =
      some ((c.saveTileAndNotify desc data).1.stored, (c.saveTileAndNotify desc data).2) := by
  have hfind : c.stored.tilesBeingRendered (cacheKey desc) = c.findTileBeingRendered desc := rfl
  rw [SizedCache.saveTileAndNotify, saveDataToCache_stored h, Option.map_some, hfind,
    TileCache.saveTileAndNotify]
  cases c.findTileBeingRendered desc with
  | none => rfl
  | some t =>
      apply congrArg some
      apply Prod.ext
      · exact forgetTileBeingRendered_stored desc t
      · rfl

theorem invalidateTiles_stored (m : Invalidation) (canonicalViewId : Int) :
    c.stored.invalidateTiles m canonicalViewId =
      some (c.invalidateTiles m canonicalViewId).1.stored := by
  have hmap : (c.stored.cache.mapM fun entry =>
      if m.intersects canonicalViewId entry.1 then
        entry.2.map fun tile => (entry.1, some tile.invalidate)
      else some entry) = some (c.invalidateTiles m canonicalViewId).1.stored.cache := by
    rw [TileCache.invalidateTiles, stored, stored]
    induction c.cache with
    | nil => rfl
    | cons entry cache ih =>
        rw [List.map_cons, List.mapM_cons, ih, List.map_cons, List.map_cons]
        split <;> rfl
  rw [SizedCache.invalidateTiles, hmap]
  rfl

theorem subscribeToTileRendering_stored [DecidableEq σ] (tile : TileDesc) (subscriber : σ)
    (now : Int) :
    c.stored.subscribeToTileRendering tile subscriber now =
      (c.subscribeToTileRendering tile subscriber now).1.stored := by
  have hfind : c.stored.tilesBeingRendered (cacheKey tile) = c.findTileBeingRendered tile := rfl
  rw [SizedCache.subscribeToTileRendering, TileCache.subscribeToTileRendering, hfind]
  cases c.findTileBeingRendered tile with
  | none => rfl
  | some t =>
      dsimp only
      split <;> rfl

theorem step_stored [DecidableEq σ] {c : TileCache σ} (h : c.Accounted) (op : CacheOp σ) :
    c.stored.step op = some (c.step op).stored := by
  cases op with
  | saveTileAndNotify desc data =>
      rw [SizedCache.step, saveTileAndNotify_stored h]
      rfl
  | setMaxCacheSize maxCacheSize =>
      apply ensureCacheSize_stored (c := { c with maxCacheSize := maxCacheSize })
      exact ⟨h.keys, h.size⟩
  | invalidateTiles m canonicalViewId => exact invalidateTiles_stored m canonicalViewId
  | clear => rfl
  | subscribe tile subscriber now =>
      rw [SizedCache.step, subscribeToTileRendering_stored]
      rfl
  | forget descForKitReply =>
      have hfind : c.stored.tilesBeingRendered (cacheKey descForKitReply) =
        c.findTileBeingRendered descForKitReply := rfl
      rw [SizedCache.step, hfind, TileCache.step]
      cases c.findTileBeingRendered descForKitReply with
      | none => rfl
      | some t => exact congrArg some (forgetTileBeingRendered_stored descForKitReply t)

/-- What is being rendered is kept. -/
theorem mem_ensureCacheSize {entry : TileDesc × TileData} (hentry : entry ∈ c.cache)
    (hrendered : (c.tilesBeingRendered (cacheKey entry.1)).isSome = true) :
    entry ∈ c.ensureCacheSize.cache := by
  rw [TileCache.ensureCacheSize]
  split
  · exact hentry
  · rw [List.mem_filter, isKept, hrendered, Bool.or_true]
    exact ⟨hentry, rfl⟩

end TileCache

/-! ## The size of the cache -/

namespace SizedCache

variable {σ : Type}

/-- The size is that of the tiles, and there is a tile in each entry. -/
structure SizeOfTiles (c : SizedCache σ) : Prop where
  filled : ∀ entry ∈ c.cache, entry.2.isSome = true
  size : c.cacheSize = (c.cache.map fun entry => (entry.2.map TileCache.itemCacheSize).getD 0).sum

/-- Every tile that is being rendered is still there. -/
def KeepsRendered (c c' : SizedCache σ) : Prop :=
  ∀ entry ∈ c.cache, (c.tilesBeingRendered (cacheKey entry.1)).isSome = true → entry ∈ c'.cache

theorem sizeOfTiles_stored {c : TileCache σ} (h : c.Accounted) : SizeOfTiles c.stored := by
  constructor
  · intro entry hentry
    rcases List.mem_map.mp hentry with ⟨entry', _, rfl⟩
    rfl
  · change c.cacheSize.toNat = (List.map _ (List.map _ c.cache)).sum
    rw [List.map_map, TileCache.toNat_cacheSize h]
    rfl

theorem keepsRendered_stored (c : TileCache σ) :
    KeepsRendered c.stored c.ensureCacheSize.stored := by
  intro entry hentry hrendered
  rcases List.mem_map.mp hentry with ⟨entry', hentry', rfl⟩
  apply List.mem_map_of_mem
  exact TileCache.mem_ensureCacheSize hentry' hrendered

/-- In every run the size is that of the tiles, each step of its arithmetic stays at zero or above,
and cleaning leaves the tiles that are being rendered, whatever the size the cache may have. -/
theorem run_sizeOfTiles [DecidableEq σ] (dontCache : Bool) (ops : List (CacheOp σ)) :
    ∃ c, run step (new dontCache) ops = some c ∧ c.SizeOfTiles ∧
      (∃ c', c.ensureCacheSize = some c' ∧ c.KeepsRendered c') ∧
      ∀ maxCacheSize, ∃ c', c.setMaxCacheSize maxCacheSize = some c' ∧ c.KeepsRendered c' := by
  have hstep : ∀ (c : TileCache σ) op, c.Accounted →
      c.stored.step op = some (c.step op).stored ∧ (c.step op).Accounted :=
    fun c op h => ⟨TileCache.step_stored h op, h.step op⟩
  rcases run_eq_foldl step hstep ops (TileCache.accounted_new dontCache) with ⟨hrun, haccounted⟩
  generalize ops.foldl (fun c op => c.step op) (TileCache.new dontCache) = c at hrun haccounted
  refine ⟨c.stored, hrun, sizeOfTiles_stored haccounted, ?_, ?_⟩
  · exact ⟨_, TileCache.ensureCacheSize_stored haccounted, keepsRendered_stored c⟩
  · intro maxCacheSize
    exact ⟨_, TileCache.step_stored haccounted (.setMaxCacheSize maxCacheSize),
      keepsRendered_stored { c with maxCacheSize := maxCacheSize }⟩

end SizedCache

end CoolOnline.Wsd
