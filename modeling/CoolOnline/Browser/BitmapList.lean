import CoolOnline.Browser.TileManager
import CoolOnline.Library.Ascending
import Mathlib.Algebra.Field.Rat

/-! # The list of the tiles with bitmaps

`TileManager.tileBitmapList` of `browser/src/app/TilesMiddleware.ts`: which tiles are in it, how many
and in what order, through all that changes bitmaps and distances.
-/

namespace CoolOnline.Browser.TileManager

variable {ι : Type} {m m' m'' : TileManager ι} {key k : Key} {distance : Rat}

def hasBitmap (m : TileManager ι) (key : Key) : Bool :=
  (m.tiles.get key).any fun t => t.image.isSome

/-- The list holds exactly the tiles with a bitmap, each once, and not too many. No distance is
negative. -/
structure BitmapList (m : TileManager ι) : Prop where
  nodup : m.tileBitmapList.Nodup
  mem_iff : ∀ key, key ∈ m.tileBitmapList ↔ m.hasBitmap key = true
  length_le : m.tileBitmapList.length ≤ highNumBitmaps + 1
  distances : ∀ key, 0 ≤ m.distanceOf key

/-- The furthest away is at the end. -/
def Sorted (m : TileManager ι) : Prop := Ascending m.distanceOf m.tileBitmapList

/-- What leads from `m` to `m'` keeps the list, and its order. -/
def Keeps (m m' : TileManager ι) : Prop := m.BitmapList → m'.BitmapList ∧ (m.Sorted → m'.Sorted)

namespace Keeps

theorem refl (m : TileManager ι) : Keeps m m := fun h => ⟨h, id⟩

theorem trans (h : Keeps m m') (h' : Keeps m' m'') : Keeps m m'' := by
  intro hm
  rcases h hm with ⟨hm', hsorted⟩
  rcases h' hm' with ⟨hm'', hsorted'⟩
  exact ⟨hm'', fun hs => hsorted' (hsorted hs)⟩

theorem foldl {α : Type*} {f : TileManager ι → α → TileManager ι}
    (h : ∀ m a, Keeps m (f m a)) (l : List α) (m : TileManager ι) : Keeps m (l.foldl f m) := by
  induction l generalizing m with
  | nil => exact .refl m
  | cons a l ih => exact (h m a).trans (ih (f m a))

theorem ite {p : Prop} [Decidable p] (h : p → Keeps m m') (h' : ¬ p → Keeps m m'') :
    Keeps m (if p then m' else m'') := by
  split
  case isTrue hp => exact h hp
  case isFalse hp => exact h' hp

/-- The list is the same, and so is what it tells of the tiles in it. -/
theorem same (hlist : m'.tileBitmapList = m.tileBitmapList)
    (hhas : ∀ k, m'.hasBitmap k = m.hasBitmap k)
    (hdist : ∀ k, m.hasBitmap k = true → m'.distanceOf k = m.distanceOf k)
    (hdistances : ∀ k, 0 ≤ m.distanceOf k → 0 ≤ m'.distanceOf k) : Keeps m m' := by
  intro hm
  constructor
  · exact {
      nodup := hlist ▸ hm.nodup
      mem_iff := fun k => by rw [hlist, hhas k, hm.mem_iff k]
      length_le := hlist ▸ hm.length_le
      distances := fun k => hdistances k (hm.distances k) }
  · intro hs
    apply Ascending.of_sublist hs
    · rw [hlist]
    · intro k hk
      rw [hlist] at hk
      exact hdist k ((hm.mem_iff k).mp hk)

/-- A tile is taken out of the list with its bitmap. -/
theorem erase (hlist : m.BitmapList → m'.tileBitmapList = m.tileBitmapList.erase key)
    (hhas : ∀ k, m'.hasBitmap k = (k ≠ key && m.hasBitmap k))
    (hdist : ∀ k, k ≠ key → m'.distanceOf k = m.distanceOf k)
    (hkey : 0 ≤ m.distanceOf key → 0 ≤ m'.distanceOf key) : Keeps m m' := by
  intro hm
  have hlist := hlist hm
  constructor
  · constructor
    case nodup => exact hlist ▸ hm.nodup.erase key
    case mem_iff =>
      intro k
      rw [hlist, hm.nodup.mem_erase_iff, hhas k, hm.mem_iff k]
      simp
    case length_le => exact hlist ▸ (List.length_erase_le).trans hm.length_le
    case distances =>
      intro k
      by_cases hk : k = key
      · exact hk ▸ hkey (hm.distances key)
      · rw [hdist k hk]
        exact hm.distances k
  · intro hs
    apply Ascending.of_sublist hs
    · rw [hlist]
      exact List.erase_sublist
    · intro k hk
      rw [hlist, hm.nodup.mem_erase_iff] at hk
      exact hdist k hk.1

end Keeps

/-! ## Changes of a tile -/

section Tiles

variable {f : Tile ι → Tile ι}

theorem hasBitmap_modifyTile (hf : ∀ t, (f t).image.isSome = t.image.isSome) :
    (m.modifyTile key f).hasBitmap k = m.hasBitmap k := by
  rw [hasBitmap, hasBitmap, modifyTile, OrderedMap.get_modify]
  split
  · cases m.tiles.get k with
    | none => rfl
    | some t => exact hf t
  · rfl

theorem distanceOf_modifyTile (hf : ∀ t, (f t).distanceFromView = t.distanceFromView) :
    (m.modifyTile key f).distanceOf k = m.distanceOf k := by
  rw [distanceOf, distanceOf, modifyTile, OrderedMap.get_modify]
  split
  · rw [Option.map_map]
    exact congrArg (Option.getD · 0) (Option.map_congr fun t _ => hf t)
  · rfl

/-- Neither the bitmap of a tile nor its distance changes. -/
theorem modifyTile_keeps (m : TileManager ι) (key : Key)
    (hf : ∀ t, (f t).image.isSome = t.image.isSome)
    (hf' : ∀ t, (f t).distanceFromView = t.distanceFromView) : Keeps m (m.modifyTile key f) :=
  .same rfl (fun _ => hasBitmap_modifyTile hf) (fun _ _ => distanceOf_modifyTile hf')
    fun _ h => (distanceOf_modifyTile hf').symm ▸ h

theorem hasBitmap_of_get {t : Tile ι} (hget : m.tiles.get k = some t) :
    m.hasBitmap k = t.image.isSome := by
  rw [hasBitmap, hget]
  rfl

theorem distanceOf_of_get {t : Tile ι} (hget : m.tiles.get k = some t) :
    m.distanceOf k = t.distanceFromView := by
  rw [distanceOf, hget]
  rfl

theorem get_tileForMsg {coords : TileCoordData} (hnone : m.tiles.get coords.key = none) :
    (m.tileForMsg coords distance).tiles.get k =
      if coords.key = k then some { Tile.new coords with distanceFromView := distance }
      else m.tiles.get k := by
  have hhas : ¬ m.tiles.has coords.key = true := by simp [OrderedMap.has, hnone]
  rw [tileForMsg, if_neg hhas, createTile, if_neg hhas, modifyTile]
  dsimp only
  rw [OrderedMap.get_modify, OrderedMap.get_set]
  split
  · rfl
  · rfl

theorem tileBitmapList_tileForMsg (m : TileManager ι) (coords : TileCoordData) (distance : Rat) :
    (m.tileForMsg coords distance).tileBitmapList = m.tileBitmapList := by
  rw [tileForMsg, createTile]
  split
  · rfl
  · rfl

/-- A tile that was not there has no bitmap. -/
theorem tileForMsg_keeps (m : TileManager ι) (coords : TileCoordData) (hdistance : 0 ≤ distance) :
    Keeps m (m.tileForMsg coords distance) := by
  cases hold : m.tiles.get coords.key with
  | some t =>
      have hhas : m.tiles.has coords.key = true := by simp [OrderedMap.has, hold]
      rw [tileForMsg, if_pos hhas]
      exact .refl m
  | none =>
      apply Keeps.same (tileBitmapList_tileForMsg m coords distance)
      · intro k
        rw [hasBitmap, hasBitmap, get_tileForMsg hold]
        split
        case isTrue heq =>
          rw [← heq, hold]
          rfl
        case isFalse => rfl
      · intro k hk
        rw [distanceOf, distanceOf, get_tileForMsg hold]
        split
        case isTrue heq =>
          rw [← heq, hasBitmap, hold] at hk
          cases hk
        case isFalse => rfl
      · intro k hk
        rw [distanceOf, get_tileForMsg hold]
        split
        · exact hdistance
        · exact hk

theorem rehydrateTile_keeps (m : TileManager ι) (key : Key) (wireMessage : Bool) :
    Keeps m (m.rehydrateTile key wireMessage) := by
  have hpaused (m : TileManager ι) : Keeps m { m with pausedForCoherency := true } :=
    .same rfl (fun _ => rfl) (fun _ _ => rfl) fun _ h => h
  have hhanded (m : TileManager ι) (tile : Tile ι) (x : PendingDelta) :
      Keeps m (m.applyCompressedDelta tile x) := by
    apply (modifyTile_keeps m x.coords.key (f := fun t => { t with lastPendingId := x.ids.2 })
      (fun _ => rfl) fun _ => rfl).trans
    exact .same rfl (fun _ => rfl) (fun _ _ => rfl) fun _ h => h
  rw [rehydrateTile]
  cases m.tiles.get key with
  | none => exact .refl m
  | some tile =>
      apply Keeps.ite
      · intro _
        have hfirst : Keeps m
            (if tile.distanceFromView = 0 then { m with pausedForCoherency := true } else m) :=
          .ite (fun _ => hpaused m) fun _ => .refl m
        apply hfirst.trans
        cases slice tile.coords tile.rawDeltas tile.lastPendingId wireMessage with
        | some x => exact hhanded _ tile x
        | none => exact .refl _
      · exact fun _ => .refl m

end Tiles

/-! ## Bitmaps that are freed -/

theorem get_reclaimTileBitmapMemory :
    (m.reclaimTileBitmapMemory key).tiles.get k =
      if key = k ∧ m.hasBitmap key = true then
        (m.tiles.get key).map fun t =>
          { t with image := none, decompressedId := 0, lastPendingId := 0 }
      else m.tiles.get k := by
  rw [reclaimTileBitmapMemory]
  cases hget : m.tiles.get key with
  | none => simp [hasBitmap, hget]
  | some t =>
      rw [hasBitmap_of_get hget]
      dsimp only
      by_cases himage : t.image.isSome = true
      · rw [if_pos himage]
        simp [himage, OrderedMap.get_set]
      · rw [if_neg himage, if_neg fun h => himage h.2]

theorem hasBitmap_reclaimTileBitmapMemory :
    (m.reclaimTileBitmapMemory key).hasBitmap k = (k ≠ key && m.hasBitmap k) := by
  rw [hasBitmap, get_reclaimTileBitmapMemory]
  by_cases hk : key = k
  · subst hk
    cases hget : m.tiles.get key with
    | none => simp [hasBitmap, hget]
    | some t =>
        by_cases himage : t.image.isSome = true
        · simp [hasBitmap, hget, himage]
        · simp [hasBitmap, hget, himage]
  · rw [if_neg fun h => hk h.1]
    simp [hasBitmap, Ne.symm hk]

theorem distanceOf_reclaimTileBitmapMemory :
    (m.reclaimTileBitmapMemory key).distanceOf k = m.distanceOf k := by
  rw [distanceOf, get_reclaimTileBitmapMemory, distanceOf]
  split
  case isTrue h =>
    rw [← h.1, Option.map_map]
    rfl
  case isFalse => rfl

theorem tileBitmapList_reclaimTileBitmapMemory (h : m.BitmapList) (key : Key) :
    (m.reclaimTileBitmapMemory key).tileBitmapList = m.tileBitmapList.erase key := by
  have hnot (hbitmap : m.hasBitmap key = false) :
      m.tileBitmapList = m.tileBitmapList.erase key := by
    apply (List.erase_of_not_mem _).symm
    rw [h.mem_iff, hbitmap]
    exact Bool.false_ne_true
  rw [reclaimTileBitmapMemory]
  cases hget : m.tiles.get key with
  | none => exact hnot (by rw [hasBitmap, hget]; rfl)
  | some t =>
      dsimp only
      split
      case isTrue => rfl
      case isFalse himage =>
        apply hnot
        rw [hasBitmap_of_get hget]
        exact Bool.eq_false_of_not_eq_true himage

theorem reclaimTileBitmapMemory_keeps (m : TileManager ι) (key : Key) :
    Keeps m (m.reclaimTileBitmapMemory key) :=
  .erase (fun h => tileBitmapList_reclaimTileBitmapMemory h key)
    (fun _ => hasBitmap_reclaimTileBitmapMemory) (fun _ _ => distanceOf_reclaimTileBitmapMemory)
    fun h => distanceOf_reclaimTileBitmapMemory.symm ▸ h

theorem get_removeTile :
    (m.removeTile key).tiles.get k = if key = k then none else m.tiles.get k := by
  rw [removeTile]
  split
  case isTrue =>
    dsimp only
    rw [OrderedMap.get_delete, get_reclaimTileBitmapMemory]
    split
    · rfl
    case isFalse hk => rw [if_neg fun h => hk h.1]
  case isFalse hhas =>
    split
    case isTrue hk => simpa [OrderedMap.has, hk] using hhas
    case isFalse => rfl

theorem removeTile_keeps (m : TileManager ι) (key : Key) : Keeps m (m.removeTile key) := by
  apply Keeps.erase
  case hlist =>
    intro h
    rw [← tileBitmapList_reclaimTileBitmapMemory h, removeTile]
    split
    case isTrue => rfl
    case isFalse hhas =>
      have hnone : m.tiles.get key = none := by simpa [OrderedMap.has] using hhas
      rw [reclaimTileBitmapMemory, hnone]
  case hhas =>
    intro k
    rw [hasBitmap, get_removeTile, hasBitmap]
    by_cases hk : key = k
    · simp [hk]
    · simp [hk, Ne.symm hk]
  case hdist =>
    intro k hk
    rw [distanceOf, get_removeTile, if_neg (Ne.symm hk), distanceOf]
  case hkey =>
    intro _
    rw [distanceOf, get_removeTile, if_pos rfl]
    exact le_refl _

/-- No tile is left, in the list or elsewhere. -/
theorem removeAllTiles_spec (m : TileManager ι) :
    m.removeAllTiles.tileBitmapList = [] ∧ ∀ key, m.removeAllTiles.tiles.get key = none := by
  have hfold (keys : List Key) : ∀ m : TileManager ι, m.tileBitmapList = [] →
      (keys.foldl removeTile m).tileBitmapList = [] ∧ ∀ key,
        (keys.foldl removeTile m).tiles.get key = if key ∈ keys then none else m.tiles.get key := by
    induction keys with
    | nil => exact fun m hm => ⟨hm, fun key => by simp⟩
    | cons first keys ih =>
        intro m hm
        have hnil : (m.removeTile first).tileBitmapList = [] := by
          rw [removeTile, reclaimTileBitmapMemory]
          split
          · dsimp only
            split
            · exact hm
            · split
              · simp [hm]
              · exact hm
          · exact hm
        rcases ih (m.removeTile first) hnil with ⟨hlist, hget⟩
        refine ⟨hlist, ?_⟩
        intro key
        rw [List.foldl_cons, hget, get_removeTile]
        by_cases hkey : first = key
        · simp [hkey]
        · simp [hkey, Ne.symm hkey]
  rcases hfold m.tiles.keys { m with tileBitmapList := [] } rfl with ⟨hlist, hget⟩
  refine ⟨hlist, ?_⟩
  intro key
  rw [removeAllTiles, hget]
  split
  · rfl
  case isFalse hkey =>
    apply Option.eq_none_iff_forall_ne_some.mpr
    intro t ht
    exact hkey (OrderedMap.mem_keys_of_get ht)

/-- Nothing is listed, and there is no bitmap. -/
theorem bitmapList_of_nil (hlist : m.tileBitmapList = []) (hnone : ∀ k, m.hasBitmap k = false)
    (hdistances : ∀ k, 0 ≤ m.distanceOf k) : m.BitmapList ∧ m.Sorted := by
  constructor
  · constructor
    case nodup => exact hlist ▸ List.nodup_nil
    case mem_iff =>
      intro k
      rw [hlist, hnone k]
      simp
    case length_le => simp [hlist]
    case distances => exact hdistances
  · rw [Sorted, hlist]
    exact List.Pairwise.nil

theorem removeAllTiles_bitmapList (m : TileManager ι) :
    m.removeAllTiles.BitmapList ∧ m.removeAllTiles.Sorted := by
  rcases removeAllTiles_spec m with ⟨hlist, hget⟩
  apply bitmapList_of_nil hlist
  · intro k
    rw [hasBitmap, hget]
    rfl
  · intro k
    rw [distanceOf, hget]
    exact le_refl _

/-! ## Garbage collection -/

theorem trimDeltas_keeps (lowDeltaMemory : Nat) (keys : List Key) (totalSize : Nat)
    (m : TileManager ι) : Keeps m (trimDeltas lowDeltaMemory keys totalSize m) := by
  induction keys generalizing totalSize m with
  | nil => exact .refl m
  | cons key keys ih =>
      rw [trimDeltas]
      apply Keeps.ite
      · exact fun _ => .refl m
      · intro _
        cases m.tiles.get key with
        | none => exact ih totalSize m
        | some tile =>
            apply Keeps.ite
            · intro _
              apply (reclaimTileBitmapMemory_keeps m key).trans
              apply Keeps.trans _ (ih _ _)
              exact modifyTile_keeps _ key (fun _ => rfl) fun _ => rfl
            · exact fun _ => ih totalSize m

theorem garbageCollect_keeps (m : TileManager ι) (discardAll : Bool) :
    Keeps m (m.garbageCollect discardAll) := by
  have hmemory (m : TileManager ι) (high low : Nat) : Keeps m (m.trimMemory high low) :=
    .ite (fun _ => trimDeltas_keeps _ _ _ m) fun _ => .refl m
  have htiles (m : TileManager ι) (tileCount high low : Nat) :
      Keeps m (m.trimTiles tileCount high low) := by
    apply Keeps.ite
    · intro _
      apply Keeps.foldl
      intro m key
      exact .ite (fun _ => removeTile_keeps m key) fun _ => .refl m
    · exact fun _ => .refl m
  apply Keeps.ite
  · exact fun _ => (hmemory m _ _).trans (htiles _ _ _ _)
  · exact fun _ => (hmemory m _ _).trans (htiles _ _ _ _)

/-! ## A bitmap that is set -/

theorem freeLastTile_keeps (m : TileManager ι) : Keeps m m.freeLastTile := by
  rw [freeLastTile]
  cases m.tileBitmapList.getLast? with
  | none => exact .refl m
  | some last =>
      apply Keeps.ite
      · exact fun _ => reclaimTileBitmapMemory_keeps m last
      · exact fun _ => .refl m

/-- There is room for one more. -/
theorem length_freeLastTile (h : m.BitmapList) :
    m.freeLastTile.tileBitmapList.length ≤ highNumBitmaps := by
  rw [freeLastTile]
  cases hlast : m.tileBitmapList.getLast? with
  | none =>
      rw [List.getLast?_eq_none_iff] at hlast
      simp [hlast]
  | some last =>
      dsimp only
      split
      case isTrue =>
        have hmem : last ∈ m.tileBitmapList := List.mem_of_getLast? hlast
        rw [tileBitmapList_reclaimTileBitmapMemory h, List.length_erase_of_mem hmem]
        have := h.length_le
        omega
      case isFalse hlen => exact Nat.le_of_not_lt hlen

theorem get_freeLastTile (hkey : m.hasBitmap key = false) :
    m.freeLastTile.tiles.get key = m.tiles.get key := by
  rw [freeLastTile]
  cases m.tileBitmapList.getLast? with
  | none => rfl
  | some last =>
      dsimp only
      split
      · rw [get_reclaimTileBitmapMemory, if_neg]
        rintro ⟨rfl, hlast⟩
        rw [hkey] at hlast
        cases hlast
      · rfl

/-- The binary search ends between what is nearer and what is not. -/
theorem bitmapPlace_bounds (hs : m.Sorted) {turns low high : Nat} (hturns : high - low < turns)
    (h : Ascending.Bounds m.distanceOf m.tileBitmapList distance low high) :
    Ascending.Bounds m.distanceOf m.tileBitmapList distance
      (m.bitmapPlace distance turns low high) (m.bitmapPlace distance turns low high) := by
  induction turns generalizing low high with
  | zero => exact absurd hturns (Nat.not_lt_zero _)
  | succ turns ih =>
      rw [bitmapPlace]
      split
      case isTrue hlt =>
        have hmid : (low + high) / 2 < high := by omega
        have hlow : low ≤ (low + high) / 2 := by omega
        have hlen : (low + high) / 2 < m.tileBitmapList.length := hmid.trans_le h.high_le
        have hget := List.getElem?_eq_getElem hlen
        dsimp only
        rw [hget, Option.map_some, Option.any_some]
        split
        case isTrue hnear =>
          apply ih (by omega)
          exact h.above hs hmid hget (of_decide_eq_true hnear)
        case isFalse hnear =>
          apply ih (by omega)
          exact h.below hs hmid hlow hget (not_lt.mp fun hlt => hnear (decide_eq_true hlt))
      case isFalse hge =>
        have heq : high = low := Nat.le_antisymm (Nat.le_of_not_lt hge) h.low_le
        exact heq ▸ h

theorem bitmapPlace_le (m : TileManager ι) (distance : Rat) (turns : Nat) {low high : Nat}
    (h : low ≤ high) : m.bitmapPlace distance turns low high ≤ high := by
  induction turns generalizing low high with
  | zero => exact h
  | succ turns ih =>
      rw [bitmapPlace]
      split
      · dsimp only
        split
        · exact ih (by omega)
        · have hmid : (low + high) / 2 ≤ high := by omega
          exact (ih (by omega)).trans hmid
      · exact h

/-- A tile that has no bitmap yet gets one, and its place in the list. -/
theorem insertBitmap_keeps {place : Nat} (bitmap : ι) (hkey : m.hasBitmap key = false)
    (hhas : m.tiles.has key = true) (hlen : m.tileBitmapList.length ≤ highNumBitmaps)
    (hplace : place ≤ m.tileBitmapList.length)
    (hbounds : m.BitmapList → m.Sorted →
      Ascending.Bounds m.distanceOf m.tileBitmapList (m.distanceOf key) place place) :
    Keeps m ({ m with
      tileBitmapList := m.tileBitmapList.insertIdx place key }.modifyTile key fun t =>
        { t with image := some bitmap }) := by
  intro hm
  have hnot : key ∉ m.tileBitmapList := by
    rw [hm.mem_iff, hkey]
    exact Bool.false_ne_true
  have hdist (k : Key) : ({ m with
      tileBitmapList := m.tileBitmapList.insertIdx place key }.modifyTile key fun t =>
        { t with image := some bitmap }).distanceOf k = m.distanceOf k :=
    distanceOf_modifyTile fun _ => rfl
  have hperm : (m.tileBitmapList.insertIdx place key).Perm (key :: m.tileBitmapList) :=
    List.perm_insertIdx key m.tileBitmapList hplace
  constructor
  · constructor
    case nodup => exact hperm.nodup_iff.mpr (List.nodup_cons.mpr ⟨hnot, hm.nodup⟩)
    case mem_iff =>
      intro k
      rw [hasBitmap, modifyTile]
      dsimp only
      rw [hperm.mem_iff, List.mem_cons, hm.mem_iff, OrderedMap.get_modify, hasBitmap]
      by_cases hk : key = k
      · subst hk
        rcases Option.isSome_iff_exists.mp hhas with ⟨t, ht⟩
        simp [ht]
      · simp [hk, Ne.symm hk]
    case length_le =>
      rw [modifyTile]
      dsimp only
      rw [hperm.length_eq]
      exact Nat.succ_le_succ hlen
    case distances => exact fun k => (hdist k).symm ▸ hm.distances k
  · intro hs
    apply Ascending.of_sublist (Ascending.insertIdx hs (hbounds hm hs)) (List.Sublist.refl _)
    exact fun k _ => hdist k

/-- The place of a tile among those with a bitmap. -/
theorem place_bounds (hm : m.BitmapList) (hs : m.Sorted) (distance : Rat) :
    let place :=
      if distance = 0 then 0
      else m.bitmapPlace distance (m.tileBitmapList.length + 1) 0 m.tileBitmapList.length
    Ascending.Bounds m.distanceOf m.tileBitmapList distance place place := by
  intro place
  dsimp only [place]
  split
  case isTrue hzero =>
    exact {
      low_le := Nat.le_refl 0
      high_le := Nat.zero_le _
      before := fun _ _ _ hi => absurd hi (Nat.not_lt_zero _)
      behind := fun _ k _ _ => hzero ▸ hm.distances k }
  case isFalse => exact bitmapPlace_bounds hs (by omega) (Ascending.bounds_all _ _ _)

theorem setBitmapOnTile_keeps (m : TileManager ι) (key : Key) (bitmap : ι) :
    Keeps m (m.setBitmapOnTile key bitmap) := by
  rw [setBitmapOnTile]
  cases hget : m.tiles.get key with
  | none => exact .refl m
  | some tile =>
      dsimp only
      split
      case isTrue himage =>
        apply Keeps.same
        case hlist => rfl
        case hhas =>
          intro k
          rw [hasBitmap, hasBitmap, modifyTile, OrderedMap.get_modify]
          split
          case isTrue hk => simp [← hk, hget, himage]
          case isFalse => rfl
        case hdist =>
          intro k _
          rw [distanceOf_modifyTile]
          exact fun _ => rfl
        case hdistances =>
          intro k hk
          rw [distanceOf_modifyTile]
          · exact hk
          · exact fun _ => rfl
      case isFalse himage =>
        have hkey : m.hasBitmap key = false := by
          rw [hasBitmap_of_get hget]
          exact Bool.eq_false_of_not_eq_true himage
        have hfree := (get_freeLastTile hkey).trans hget
        intro hm
        have hlen := length_freeLastTile hm
        revert hm
        apply (freeLastTile_keeps m).trans
        generalize m.freeLastTile = m at hfree hlen
        have hdist := distanceOf_of_get hfree
        apply insertBitmap_keeps bitmap _ _ hlen
        · split
          · exact Nat.zero_le _
          · exact m.bitmapPlace_le _ _ (Nat.zero_le _)
        · intro hm hs
          rw [hdist]
          exact place_bounds hm hs _
        · rw [hasBitmap_of_get hfree]
          exact Bool.eq_false_of_not_eq_true himage
        · rw [OrderedMap.has, hfree]
          rfl

/-! ## Distances -/

theorem sortTileBitmapList_spec (hm : m.BitmapList) :
    m.sortTileBitmapList.BitmapList ∧ m.sortTileBitmapList.Sorted := by
  have hperm := List.perm_insertionSort (fun a b => m.distanceOf a ≤ m.distanceOf b)
    m.tileBitmapList
  constructor
  · exact {
      nodup := hperm.nodup_iff.mpr hm.nodup
      mem_iff := fun k => hperm.mem_iff.trans (hm.mem_iff k)
      length_le := hperm.length_eq.trans_le hm.length_le
      distances := hm.distances }
  · have htotal : Std.Total fun a b => m.distanceOf a ≤ m.distanceOf b :=
      ⟨fun a b => le_total _ _⟩
    have htrans : IsTrans Key fun a b => m.distanceOf a ≤ m.distanceOf b :=
      ⟨fun a b c => le_trans⟩
    exact List.pairwise_insertionSort (fun a b => m.distanceOf a ≤ m.distanceOf b) m.tileBitmapList

/-- Every tile gets another distance, which does not change what has a bitmap. -/
theorem mapDistances_bitmapList (hm : m.BitmapList) {distance : TileCoordData → Rat}
    (hdistance : ∀ coords, 0 ≤ distance coords) :
    BitmapList { m with
      tiles := m.tiles.mapValues fun t => { t with distanceFromView := distance t.coords } } := by
  constructor
  case nodup => exact hm.nodup
  case mem_iff =>
    intro k
    rw [hasBitmap]
    dsimp only
    rw [OrderedMap.get_mapValues, hm.mem_iff, hasBitmap, Option.any_map]
  case length_le => exact hm.length_le
  case distances =>
    intro k
    rw [distanceOf]
    dsimp only
    rw [OrderedMap.get_mapValues]
    cases m.tiles.get k with
    | none => exact le_refl _
    | some t => exact hdistance t.coords

/-- The loops of `updateFileBasedView` over the tiles: those in the queue are current, and all others
as far away as can be. -/
def updateFileBasedView (m : TileManager ι) (queue : List Key) : TileManager ι :=
  (queue.foldl makeTileCurrent
    { m with
      tiles := m.tiles.mapValues fun t => { t with distanceFromView := 9007199254740991 }
      }).sortTileBitmapList

theorem distanceOf_current :
    (m.modifyTile key fun t => { t with distanceFromView := 0 }).distanceOf k =
      if key = k then 0 else m.distanceOf k := by
  rw [distanceOf, modifyTile]
  dsimp only
  rw [OrderedMap.get_modify]
  split
  · cases m.tiles.get k with
    | none => rfl
    | some t => rfl
  · rfl

theorem current_bitmapList (hm : m.BitmapList) (key : Key) :
    (m.modifyTile key fun t => { t with distanceFromView := 0 }).BitmapList := by
  constructor
  case nodup => exact hm.nodup
  case mem_iff =>
    intro k
    rw [hasBitmap_modifyTile]
    · exact hm.mem_iff k
    · exact fun _ => rfl
  case length_le => exact hm.length_le
  case distances =>
    intro k
    rw [distanceOf_current]
    split
    · exact le_refl _
    · exact hm.distances k

theorem makeTileCurrent_bitmapList (hm : m.BitmapList) (key : Key) :
    (m.makeTileCurrent key).BitmapList :=
  (rehydrateTile_keeps _ key false (current_bitmapList hm key)).1

/-- Making the tile current leaves the list in order: the tile has no bitmap, or all before it in the
list are visible. -/
def currentKeepsOrder (m : TileManager ι) (key : Key) : Bool :=
  !m.hasBitmap key || (m.tileBitmapList.takeWhile (· ≠ key)).all fun k => m.distanceOf k = 0

theorem makeTileCurrent_sorted (hm : m.BitmapList) (hs : m.Sorted)
    (hkeeps : m.currentKeepsOrder key = true) : (m.makeTileCurrent key).Sorted := by
  apply (rehydrateTile_keeps _ key false (current_bitmapList hm key)).2
  have hrest (k : Key) (hk : k ≠ key) :
      (m.modifyTile key fun t => { t with distanceFromView := 0 }).distanceOf k =
        m.distanceOf k := by
    rw [distanceOf_current, if_neg (Ne.symm hk)]
  rw [currentKeepsOrder, Bool.or_eq_true] at hkeeps
  rcases hkeeps with hnone | hbefore
  · have hnot : key ∉ m.tileBitmapList := by
      rw [hm.mem_iff]
      simpa using hnone
    exact Ascending.of_sublist hs (List.Sublist.refl _) fun k hk =>
      hrest k (ne_of_mem_of_not_mem hk hnot)
  · apply Ascending.lower hs hm.nodup (a := key)
    · rw [distanceOf_current, if_pos rfl]
      exact hm.distances key
    · exact fun k _ hk => hrest k hk
    · intro k hk
      rw [distanceOf_current, if_pos rfl]
      exact le_of_eq (of_decide_eq_true (List.all_eq_true.mp hbefore k hk))

theorem updateFileBasedView_spec (hm : m.BitmapList) (queue : List Key) :
    (m.updateFileBasedView queue).BitmapList ∧ (m.updateFileBasedView queue).Sorted := by
  apply sortTileBitmapList_spec
  have hfold : ∀ m : TileManager ι, m.BitmapList → (queue.foldl makeTileCurrent m).BitmapList := by
    induction queue with
    | nil => exact fun m hm => hm
    | cons key queue ih => exact fun m hm => ih _ (makeTileCurrent_bitmapList hm key)
  have hfar : (0 : Rat) ≤ 9007199254740991 := by decide +kernel
  exact hfold _ (mapDistances_bitmapList hm fun _ => hfar)

/-! ## Runs -/

/-- What changes bitmaps and distances. -/
inductive BitmapOp (ι : Type) where
  | createTile (coords : TileCoordData) (distance : NNRat)
  | setBitmapOnTile (key : Key) (bitmap : ι)
  | reclaimTileBitmapMemory (key : Key)
  | removeTile (key : Key)
  | removeAllTiles
  | garbageCollect (discardAll : Bool)
  | updateAllTileDistances (distance : TileCoordData → NNRat)
  | updateFileBasedView (queue : List Key)
  | makeTileCurrent (key : Key)

namespace BitmapOp

def apply (m : TileManager ι) : BitmapOp ι → TileManager ι
  | .createTile coords distance => m.tileForMsg coords distance
  | .setBitmapOnTile key bitmap => m.setBitmapOnTile key bitmap
  | .reclaimTileBitmapMemory key => m.reclaimTileBitmapMemory key
  | .removeTile key => m.removeTile key
  | .removeAllTiles => m.removeAllTiles
  | .garbageCollect discardAll => m.garbageCollect discardAll
  | .updateAllTileDistances distance => m.updateAllTileDistances fun coords => distance coords
  | .updateFileBasedView queue => m.updateFileBasedView queue
  | .makeTileCurrent key => m.makeTileCurrent key

/-- Whether the list is in order, after it was before: it is sorted, or emptied, or no tile is made
current that is behind one that is not visible. -/
def leavesInOrder (m : TileManager ι) (inOrder : Bool) : BitmapOp ι → Bool
  | .updateAllTileDistances _ => true
  | .updateFileBasedView _ => true
  | .removeAllTiles => true
  | .makeTileCurrent key => inOrder && m.currentKeepsOrder key
  | _ => inOrder

theorem apply_bitmapList (hm : m.BitmapList) (op : BitmapOp ι) : (op.apply m).BitmapList := by
  cases op with
  | createTile coords distance => exact (tileForMsg_keeps m coords distance.2 hm).1
  | setBitmapOnTile key bitmap => exact (setBitmapOnTile_keeps m key bitmap hm).1
  | reclaimTileBitmapMemory key => exact (reclaimTileBitmapMemory_keeps m key hm).1
  | removeTile key => exact (removeTile_keeps m key hm).1
  | removeAllTiles => exact m.removeAllTiles_bitmapList.1
  | garbageCollect discardAll => exact (garbageCollect_keeps m discardAll hm).1
  | updateAllTileDistances distance =>
      apply (sortTileBitmapList_spec _).1
      exact mapDistances_bitmapList hm fun coords => (distance coords).2
  | updateFileBasedView queue => exact (updateFileBasedView_spec hm queue).1
  | makeTileCurrent key => exact makeTileCurrent_bitmapList hm key

theorem apply_sorted (hm : m.BitmapList) {inOrder : Bool} (hs : inOrder = true → m.Sorted)
    (op : BitmapOp ι) (hop : op.leavesInOrder m inOrder = true) : (op.apply m).Sorted := by
  cases op with
  | createTile coords distance => exact (tileForMsg_keeps m coords distance.2 hm).2 (hs hop)
  | setBitmapOnTile key bitmap => exact (setBitmapOnTile_keeps m key bitmap hm).2 (hs hop)
  | reclaimTileBitmapMemory key => exact (reclaimTileBitmapMemory_keeps m key hm).2 (hs hop)
  | removeTile key => exact (removeTile_keeps m key hm).2 (hs hop)
  | removeAllTiles => exact m.removeAllTiles_bitmapList.2
  | garbageCollect discardAll => exact (garbageCollect_keeps m discardAll hm).2 (hs hop)
  | updateAllTileDistances distance =>
      apply (sortTileBitmapList_spec _).2
      exact mapDistances_bitmapList hm fun coords => (distance coords).2
  | updateFileBasedView queue => exact (updateFileBasedView_spec hm queue).2
  | makeTileCurrent key =>
      rcases (Bool.and_eq_true _ _).mp hop with ⟨hbefore, hkeeps⟩
      exact makeTileCurrent_sorted hm (hs hbefore) hkeeps

end BitmapOp

/-- The tile manager, and whether its list is in order. -/
structure Watch (ι : Type) where
  manager : TileManager ι
  inOrder : Bool

namespace Watch

def step (s : Watch ι) (op : BitmapOp ι) : Watch ι :=
  ⟨op.apply s.manager, op.leavesInOrder s.manager s.inOrder⟩

def run (haveWorkers : Bool) (ops : List (BitmapOp ι)) : Watch ι :=
  ops.foldl step ⟨.start haveWorkers, true⟩

structure Ok (s : Watch ι) : Prop where
  list : s.manager.BitmapList
  sorted : s.inOrder = true → s.manager.Sorted

theorem Ok.step {s : Watch ι} (h : s.Ok) (op : BitmapOp ι) : (s.step op).Ok where
  list := op.apply_bitmapList h.list
  sorted := op.apply_sorted h.list h.sorted

theorem run_ok (haveWorkers : Bool) (ops : List (BitmapOp ι)) : (run haveWorkers ops).Ok := by
  have hall : ∀ s : Watch ι, s.Ok → (ops.foldl Watch.step s).Ok := by
    induction ops with
    | nil => exact fun s hs => hs
    | cons op ops ih => exact fun s hs => ih (s.step op) (hs.step op)
  have hstart : (TileManager.start haveWorkers : TileManager ι).BitmapList ∧
      (TileManager.start haveWorkers : TileManager ι).Sorted :=
    bitmapList_of_nil rfl (fun _ => rfl) fun _ => le_refl _
  exact hall _ ⟨hstart.1, fun _ => hstart.2⟩

end Watch

/-! ## What is evicted -/

/-- The tile loses its bitmap when another is set. -/
def Evicts (m : TileManager ι) (key : Key) (bitmap : ι) (k : Key) : Prop :=
  m.hasBitmap k = true ∧ (m.setBitmapOnTile key bitmap).hasBitmap k = false

theorem hasBitmap_set (bitmap : ι)
    (htiles : m'.tiles = m.tiles.modify key fun t => { t with image := some bitmap })
    (h : m.hasBitmap k = true) : m'.hasBitmap k = true := by
  rw [hasBitmap, htiles, OrderedMap.get_modify]
  split
  · rw [hasBitmap, Option.any_eq_true] at h
    rcases h with ⟨t, ht, _⟩
    rw [ht]
    rfl
  · exact h

theorem eq_last_of_freed (hk : m.hasBitmap k = true) (hfree : m.freeLastTile.hasBitmap k = false) :
    m.tileBitmapList.getLast? = some k := by
  rw [freeLastTile] at hfree
  cases hlast : m.tileBitmapList.getLast? with
  | none =>
      rw [hlast] at hfree
      exact absurd (hk.symm.trans hfree) (by decide)
  | some last =>
      rw [hlast] at hfree
      dsimp only at hfree
      split at hfree
      case isTrue =>
        rw [hasBitmap_reclaimTileBitmapMemory, hk, Bool.and_true] at hfree
        exact congrArg some (not_not.mp (of_decide_eq_false hfree)).symm
      case isFalse => exact absurd (hk.symm.trans hfree) (by decide)

/-- What is evicted is the last of the list. -/
theorem Evicts.getLast? {bitmap : ι} (h : m.Evicts key bitmap k) :
    m.tileBitmapList.getLast? = some k := by
  rcases h with ⟨hk, hgone⟩
  rw [setBitmapOnTile] at hgone
  cases hget : m.tiles.get key with
  | none =>
      rw [hget] at hgone
      exact absurd (hk.symm.trans hgone) (by decide)
  | some tile =>
      rw [hget] at hgone
      dsimp only at hgone
      split at hgone
      case isTrue =>
        rw [hasBitmap_set bitmap rfl hk] at hgone
        cases hgone
      case isFalse =>
        apply eq_last_of_freed hk
        apply Bool.eq_false_of_not_eq_true
        intro hstays
        rw [hasBitmap_set bitmap rfl hstays] at hgone
        cases hgone

/-- The last of a full list is evicted by a tile that has no bitmap. -/
theorem evicts_last {bitmap : ι} (hm : m.BitmapList) (hkey : m.tiles.has key = true)
    (hnone : m.hasBitmap key = false) (hlast : m.tileBitmapList.getLast? = some k)
    (hfull : highNumBitmaps < m.tileBitmapList.length) : m.Evicts key bitmap k := by
  have hk : m.hasBitmap k = true := (hm.mem_iff k).mp (List.mem_of_getLast? hlast)
  have hne : key ≠ k := by
    rintro rfl
    exact absurd (hk.symm.trans hnone) (by decide)
  refine ⟨hk, ?_⟩
  rcases Option.isSome_iff_exists.mp hkey with ⟨t, ht⟩
  have himage : t.image.isSome = false := (hasBitmap_of_get ht).symm.trans hnone
  have hfree : m.freeLastTile = m.reclaimTileBitmapMemory k := by
    rw [freeLastTile, hlast]
    exact if_pos hfull
  rw [setBitmapOnTile, ht]
  dsimp only
  rw [himage, if_neg Bool.false_ne_true, hfree, hasBitmap, modifyTile]
  dsimp only
  rw [OrderedMap.get_modify, if_neg hne]
  exact hasBitmap_reclaimTileBitmapMemory.trans (by simp)

/-- The list holds the tiles with bitmaps, and the tile that is evicted is the farthest of them, while
the list is in order. -/
theorem evicts_farthest (haveWorkers : Bool) (ops : List (BitmapOp ι)) :
    let s := Watch.run haveWorkers ops
    s.manager.BitmapList ∧
      (s.inOrder = true → s.manager.Sorted ∧
        ∀ key bitmap k k', s.manager.Evicts key bitmap k → k' ∈ s.manager.tileBitmapList →
          s.manager.distanceOf k' ≤ s.manager.distanceOf k) := by
  intro s
  have hok := Watch.run_ok haveWorkers ops
  refine ⟨hok.list, ?_⟩
  intro horder
  refine ⟨hok.sorted horder, ?_⟩
  intro key bitmap k k' hevicts hk'
  exact (hok.sorted horder).le_getLast hevicts.getLast? hk'

/-! ## A full list -/

section Full

def tileAt (i : Nat) : TileCoordData := ⟨256 * i, 0, 10, 0, 0⟩

theorem tileAt_key_inj {i j : Nat} (h : (tileAt i).key = (tileAt j).key) : i = j := by
  have hx : (tileAt i).x = (tileAt j).x := congrArg _ (TileCoordData.key_injective h)
  rw [tileAt, tileAt] at hx
  dsimp only at hx
  omega

/-- A tile is created, and gets a bitmap. -/
def shows (i : Nat) (distance : NNRat) : List (BitmapOp Unit) :=
  [.createTile (tileAt i) distance, .setBitmapOnTile (tileAt i).key ()]

/-- Two tiles that are not visible, and `n` that are. -/
def fill : Nat → List (BitmapOp Unit)
  | 0 => shows 0 5 ++ shows 1 3
  | n + 1 => fill n ++ shows (n + 2) 0

def shown (i : Nat) (distance : Rat) : Tile Unit :=
  ⟨tileAt i, distance, some (), [], 0, 0, 0, 0, 0⟩

structure Filled (s : Watch Unit) (n : Nat) : Prop where
  inOrder : s.inOrder = true
  list : ∃ l, l.length = n ∧
    s.manager.tileBitmapList = l ++ [(tileAt 1).key, (tileAt 0).key]
  farthest : s.manager.tiles.get (tileAt 0).key = some (shown 0 5)
  farther : s.manager.tiles.get (tileAt 1).key = some (shown 1 3)
  fresh : ∀ i, n + 2 ≤ i → s.manager.tiles.get (tileAt i).key = none

/-- While there is room, a visible tile is put first and none is freed. -/
theorem setBitmapOnTile_visible {t : Tile ι} (bitmap : ι) (hget : m.tiles.get key = some t)
    (hnone : t.image = none) (hvisible : t.distanceFromView = 0)
    (hroom : m.tileBitmapList.length ≤ highNumBitmaps) :
    m.setBitmapOnTile key bitmap =
      { m with tileBitmapList := key :: m.tileBitmapList }.modifyTile key fun t =>
        { t with image := some bitmap } := by
  have hfree : m.freeLastTile = m := by
    rw [freeLastTile]
    split
    · exact if_neg (Nat.not_lt.mpr hroom)
    · rfl
  rw [setBitmapOnTile, hget]
  dsimp only
  rw [hnone, if_neg (by simp), hfree, if_pos hvisible, List.insertIdx_zero]

theorem Filled.shows {s : Watch Unit} {n : Nat} (h : Filled s n) (hn : n + 2 ≤ highNumBitmaps) :
    Filled ((shows (n + 2) 0).foldl Watch.step s) (n + 1) := by
  rcases h.list with ⟨l, hl, hlist⟩
  have hnone := h.fresh (n + 2) (Nat.le_refl _)
  have hroom : (s.manager.tileForMsg (tileAt (n + 2)) 0).tileBitmapList.length ≤ highNumBitmaps := by
    rw [tileBitmapList_tileForMsg, hlist, List.length_append, hl]
    exact hn
  have hget : (s.manager.tileForMsg (tileAt (n + 2)) 0).tiles.get (tileAt (n + 2)).key =
      some { Tile.new (tileAt (n + 2)) with distanceFromView := 0 } := by
    rw [get_tileForMsg hnone, if_pos rfl]
  have hset := setBitmapOnTile_visible () hget rfl rfl hroom
  have hmanager : ((TileManager.shows (n + 2) 0).foldl Watch.step s).manager =
      (s.manager.tileForMsg (tileAt (n + 2)) 0).setBitmapOnTile (tileAt (n + 2)).key () := rfl
  have hother (i : Nat) (hi : i ≠ n + 2) :
      ((TileManager.shows (n + 2) 0).foldl Watch.step s).manager.tiles.get (tileAt i).key =
        s.manager.tiles.get (tileAt i).key := by
    have hkey : (tileAt (n + 2)).key ≠ (tileAt i).key := fun heq => hi (tileAt_key_inj heq).symm
    rw [hmanager, hset, modifyTile]
    dsimp only
    rw [OrderedMap.get_modify, if_neg hkey, get_tileForMsg hnone, if_neg hkey]
  constructor
  case inOrder => exact h.inOrder
  case list =>
    refine ⟨(tileAt (n + 2)).key :: l, by rw [List.length_cons, hl], ?_⟩
    rw [hmanager, hset, modifyTile]
    dsimp only
    rw [tileBitmapList_tileForMsg, hlist]
    rfl
  case farthest => exact (hother 0 (by omega)).trans h.farthest
  case farther => exact (hother 1 (by omega)).trans h.farther
  case fresh => exact fun i hi => (hother i (by omega)).trans (h.fresh i (by omega))

theorem filled_zero : Filled (Watch.run true (fill 0)) 0 := by
  constructor
  case inOrder => rfl
  case list => exact ⟨[], rfl, by decide +kernel⟩
  case farthest => rfl
  case farther => rfl
  case fresh =>
    intro i hi
    have hkeys : (Watch.run true (fill 0)).manager.tiles.keys =
        [(tileAt 0).key, (tileAt 1).key] := by decide +kernel
    apply Option.eq_none_iff_forall_ne_some.mpr
    intro t ht
    have hmem := OrderedMap.mem_keys_of_get ht
    rw [hkeys, List.mem_cons, List.mem_singleton] at hmem
    rcases hmem with h | h
    · have := tileAt_key_inj h
      omega
    · have := tileAt_key_inj h
      omega

/-- The list is full. -/
theorem filled {n : Nat} (hn : n + 1 ≤ highNumBitmaps) :
    Filled (Watch.run true (fill n)) n := by
  induction n with
  | zero => exact filled_zero
  | succ n ih =>
      have hrun : Watch.run true (fill (n + 1)) =
          (shows (n + 2) 0).foldl Watch.step (Watch.run true (fill n)) := List.foldl_append
      rw [hrun]
      exact (ih (by omega)).shows hn

theorem run_append (haveWorkers : Bool) (ops ops' : List (BitmapOp ι)) :
    Watch.run haveWorkers (ops ++ ops') = ops'.foldl Watch.step (Watch.run haveWorkers ops) :=
  List.foldl_append

variable {n : Nat}

/-- A tile that is created next. -/
def crowded (n : Nat) : List (BitmapOp Unit) := fill n ++ [.createTile (tileAt (n + 2)) 0]

/-- The same, after the farthest tile is made current. -/
def overtaken (n : Nat) : List (BitmapOp Unit) :=
  fill n ++ [.makeTileCurrent (tileAt 0).key, .createTile (tileAt (n + 2)) 0]

/-- In a full list the last is evicted by the tile that was created. -/
theorem created_evicts {m : TileManager Unit} (hm : m.BitmapList) {l : List Key}
    (hl : l.length + 1 = highNumBitmaps)
    (hlist : m.tileBitmapList = l ++ [(tileAt 1).key, (tileAt 0).key])
    (hfresh : m.tiles.get (tileAt (n + 2)).key = none) :
    (m.tileForMsg (tileAt (n + 2)) 0).Evicts (tileAt (n + 2)).key () (tileAt 0).key := by
  have hget : (m.tileForMsg (tileAt (n + 2)) 0).tiles.get (tileAt (n + 2)).key =
      some { Tile.new (tileAt (n + 2)) with distanceFromView := 0 } := by
    rw [get_tileForMsg hfresh, if_pos rfl]
  have hlist' := (tileBitmapList_tileForMsg m (tileAt (n + 2)) 0).trans hlist
  apply evicts_last (tileForMsg_keeps m (tileAt (n + 2)) (le_refl 0) hm).1
  · rw [OrderedMap.has, hget]
    rfl
  · rw [hasBitmap_of_get hget]
    rfl
  · rw [hlist']
    simp
  · rw [hlist', List.length_append, ← hl]
    simp

theorem crowded_evicts (hn : n + 1 = highNumBitmaps) :
    let s := Watch.run true (crowded n)
    s.inOrder = true ∧ s.manager.Evicts (tileAt (n + 2)).key () (tileAt 0).key := by
  intro s
  have hfilled : Filled (Watch.run true (fill n)) n := filled hn.le
  have hok := (Watch.run_ok true (fill n)).list
  rcases hfilled.list with ⟨l, hl, hlist⟩
  constructor
  · exact (congrArg Watch.inOrder (run_append true (fill n) _)).trans hfilled.inOrder
  · have hevicts := created_evicts hok (by rw [hl, hn]) hlist (hfilled.fresh (n + 2) (Nat.le_refl _))
    exact congrArg Watch.manager (run_append true (fill n) _) ▸ hevicts

theorem evicts_farthest_crowded :
    let s := Watch.run true (crowded 249)
    s.inOrder = true ∧ s.manager.Evicts (tileAt (249 + 2)).key () (tileAt 0).key ∧
      ∀ k ∈ s.manager.tileBitmapList,
        s.manager.distanceOf k ≤ s.manager.distanceOf (tileAt 0).key := by
  have hcrowded := crowded_evicts (n := 249) rfl
  have hall := evicts_farthest true (crowded 249)
  dsimp only at hall hcrowded ⊢
  generalize Watch.run true (crowded 249) = s at hall hcrowded ⊢
  rcases hcrowded with ⟨horder, hevicts⟩
  exact ⟨horder, hevicts, fun k hk => (hall.2 horder).2 _ _ _ k hevicts hk⟩

/-- The tile that was farthest is the last of the list still when it is made current. -/
theorem overtaken_evicts (hn : n + 1 = highNumBitmaps) :
    let m := (Watch.run true (overtaken n)).manager
    m.Evicts (tileAt (n + 2)).key () (tileAt 0).key ∧ m.distanceOf (tileAt 0).key = 0 ∧
      (tileAt 1).key ∈ m.tileBitmapList ∧ m.distanceOf (tileAt 1).key = 3 := by
  intro m
  have hfilled : Filled (Watch.run true (fill n)) n := filled hn.le
  have hok := (Watch.run_ok true (fill n)).list
  have hm : m = ((Watch.run true (fill n)).manager.makeTileCurrent (tileAt 0).key).tileForMsg
      (tileAt (n + 2)) 0 := congrArg Watch.manager (run_append true (fill n) _)
  rw [hm]
  generalize Watch.run true (fill n) = s at hfilled hok
  have hget : (s.manager.modifyTile (tileAt 0).key fun t =>
      { t with distanceFromView := 0 }).tiles.get (tileAt 0).key = some (shown 0 0) := by
    rw [modifyTile]
    dsimp only
    rw [OrderedMap.get_modify, if_pos rfl, hfilled.farthest]
    rfl
  have hcurrent : s.manager.makeTileCurrent (tileAt 0).key =
      s.manager.modifyTile (tileAt 0).key fun t => { t with distanceFromView := 0 } := by
    rw [makeTileCurrent, rehydrateTile, hget]
    rfl
  have hother (i : Nat) (hi : i ≠ 0) :
      (s.manager.modifyTile (tileAt 0).key fun t => { t with distanceFromView := 0 }).tiles.get
        (tileAt i).key = s.manager.tiles.get (tileAt i).key := by
    rw [modifyTile]
    dsimp only
    rw [OrderedMap.get_modify, if_neg fun heq => hi (tileAt_key_inj heq).symm]
  have hfresh := (hother (n + 2) (by omega)).trans (hfilled.fresh (n + 2) (Nat.le_refl _))
  have hkey (i : Nat) (hi : i < n + 2) : (tileAt (n + 2)).key ≠ (tileAt i).key := fun heq => by
    have := tileAt_key_inj heq
    omega
  rcases hfilled.list with ⟨l, hl, hlist⟩
  rw [hcurrent]
  refine ⟨created_evicts (current_bitmapList hok _) (by rw [hl, hn]) hlist hfresh, ?_, ?_, ?_⟩
  · rw [distanceOf, get_tileForMsg hfresh, if_neg (hkey 0 (by omega)), hget]
    rfl
  · rw [tileBitmapList_tileForMsg, modifyTile]
    dsimp only
    rw [hlist]
    simp
  · rw [distanceOf, get_tileForMsg hfresh, if_neg (hkey 1 (by omega)), hother 1 (by omega),
      hfilled.farther]
    rfl

/-- A visible tile is evicted, and a farther one keeps its bitmap. -/
theorem visible_evicted :
    let m := (Watch.run true (overtaken 249)).manager
    m.Evicts (tileAt (249 + 2)).key () (tileAt 0).key ∧ m.distanceOf (tileAt 0).key = 0 ∧
      (tileAt 1).key ∈ m.tileBitmapList ∧ m.distanceOf (tileAt 1).key = 3 :=
  overtaken_evicts rfl

end Full

end CoolOnline.Browser.TileManager
