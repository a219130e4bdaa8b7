import Mathlib.Data.List.Sort
import CoolOnline.Library.History
import CoolOnline.Kit.Delta
import CoolOnline.Kit.Keyframe

/-! # The generator of deltas

`DeltaGenerator` of `kit/Delta.hpp`: its cache of the last pixmaps, and what it makes of a new one, a
delta to the pixmap in the cache or a keyframe.
-/

namespace CoolOnline.Delta

structure TileLocation where
  left : Int
  top : Int
  size : Int
  part : Int
  canonicalViewId : Int
  viewMode : Int
deriving DecidableEq, Repr

/-- An entry of the cache: a `DeltaData` with its location and its wire id. -/
structure DeltaEntry where
  loc : TileLocation
  wid : Nat
  data : DeltaData

structure DeltaGenerator where
  deltaEntries : List DeltaEntry
  maxEntries : Nat

/-- The functions of zstd that are used; the rows of a keyframe are compressed as one stream, into
`ZSTD_COMPRESSBOUND` of a size. -/
structure Zstd where
  compress : List UInt8 → Option (List UInt8)
  compressStream : Nat → List (List UInt8) → Option (List UInt8)
  decompress : List UInt8 → List UInt8

/-- Compressed data is decompressed to what it was, and what follows it after that; the bound of a
size is room enough for data of that size. -/
structure Zstd.Lawful (z : Zstd) : Prop where
  decompress_nil : z.decompress [] = []
  decompress_compress : ∀ data compressed, z.compress data = some compressed →
    ∀ rest, z.decompress (compressed ++ rest) = data ++ z.decompress rest
  decompress_compressStream : ∀ size rows compressed,
    z.compressStream size rows = some compressed →
      ∀ rest, z.decompress (compressed ++ rest) = rows.flatten ++ z.decompress rest
  fits : ∀ size rows, rows.flatten.length ≤ size → (z.compressStream size rows).isSome = true

namespace DeltaGenerator

def new : DeltaGenerator := ⟨[], 0⟩

variable (g : DeltaGenerator)

/-- `rebalanceDeltasT`: the entries with the smallest wire ids are erased. -/
def rebalanceDeltasT (dropAll : Bool) : DeltaGenerator :=
  if g.maxEntries < g.deltaEntries.length ∨ dropAll then
    let toRemove :=
      if dropAll then g.deltaEntries.length
      else g.deltaEntries.length - g.maxEntries * 3 / 4
    { g with
      deltaEntries := (g.deltaEntries.insertionSort fun a b => a.wid ≤ b.wid).drop toRemove }
  else g

/-- `rebalanceDeltas`, without a new limit if it is not positive. -/
def rebalanceDeltas (limit : Int) : DeltaGenerator :=
  rebalanceDeltasT { g with maxEntries := if 0 < limit then limit.toNat else g.maxEntries } false

def setSessionCount (count : Nat) : DeltaGenerator := g.rebalanceDeltas (max count 1 * 96 : Nat)

def dropCache : DeltaGenerator := g.rebalanceDeltasT true

def find (loc : TileLocation) : Option DeltaEntry := g.deltaEntries.find? (·.loc = loc)

/-- `createDelta`: the generator, the delta if there is one, and the data of the pixmap. There is
no data for a pixmap of a bad size. -/
def createDelta (compress : List UInt8 → Option (List UInt8)) (hasAVX2 : Bool) {width height : Nat}
    (pixmap : Pixmap width height) (loc : TileLocation) (wid : Nat) (forceKeyframe : Bool)
    (mode : TileMode) : Option (DeltaGenerator × Option (List UInt8) × DeltaData) :=
  if width % 2 ≠ 0 ∨ 256 < width ∨ 256 < height then none
  else
    let update := DeltaData.ofPixmap hasAVX2 pixmap
    match g.find loc with
    | none => some ({ g with deltaEntries := g.deltaEntries ++ [⟨loc, wid, update⟩] }, none, update)
    | some cacheEntry =>
        let delta := if forceKeyframe then none else makeDelta compress cacheEntry.data update mode
        let replaceAndFree (e : DeltaEntry) := if e.loc = loc then ⟨loc, wid, update⟩ else e
        some ({ g with deltaEntries := g.deltaEntries.map replaceAndFree }, delta, update)

/-- `compressOrDelta`: the generator and the output, which is empty if the stream of a keyframe is
not compressed. -/
def compressOrDelta (z : Zstd) (hasAVX2 : Bool) {width height : Nat} (pixmap : Pixmap width height)
    (loc : TileLocation) (wid : Nat) (forceKeyframe : Bool) (mode : TileMode) :
    Option (DeltaGenerator × List UInt8) :=
  (g.createDelta z.compress hasAVX2 pixmap loc wid forceKeyframe mode).map fun r =>
    match r.2.1 with
    | some output => (r.1, output)
    | none =>
        let rowSize := width * 4 + rleMaskUnits * 64 / 8 + 2
        match z.compressStream (rowSize * height)
            (r.2.2.rows.map fun row => row.packForNetwork mode) with
        | some compressed => (r.1, 90 :: compressed)
        | none => (r.1, [])

/-! ## What the cache holds -/

variable {g} {tileSize : Nat} {hasAVX2 : Bool}

/-- What was last rendered somewhere: its wire id and the pixmap. -/
abbrev Rendered (tileSize : Nat) := TileLocation → Option (Nat × Pixmap tileSize tileSize)

/-- There is one entry for a location, and it is what was last rendered there. -/
structure Tracks (hasAVX2 : Bool) (g : DeltaGenerator) (last : Rendered tileSize) : Prop where
  nodup : (g.deltaEntries.map DeltaEntry.loc).Nodup
  newest : ∀ e ∈ g.deltaEntries, ∃ pixmap,
    last e.loc = some (e.wid, pixmap) ∧ e.data = .ofPixmap hasAVX2 pixmap

variable {last : Rendered tileSize}

theorem tracks_new : Tracks hasAVX2 new last := ⟨List.nodup_nil, by simp [new]⟩

theorem rebalanceDeltasT_sublist (dropAll : Bool) :
    ∃ kept : List DeltaEntry, kept.Perm g.deltaEntries ∧
      (g.rebalanceDeltasT dropAll).deltaEntries <:+ kept := by
  unfold rebalanceDeltasT
  split
  · exact ⟨_, List.perm_insertionSort _ _, List.drop_suffix _ _⟩
  · exact ⟨_, List.Perm.refl _, List.suffix_rfl⟩

theorem Tracks.rebalanceDeltasT (h : Tracks hasAVX2 g last) (dropAll : Bool) :
    Tracks hasAVX2 (g.rebalanceDeltasT dropAll) last := by
  obtain ⟨kept, hperm, hsuffix⟩ := rebalanceDeltasT_sublist (g := g) dropAll
  constructor
  · have hnodup : (kept.map DeltaEntry.loc).Nodup :=
      ((hperm.map DeltaEntry.loc).nodup_iff).mpr h.nodup
    exact hnodup.sublist (hsuffix.sublist.map _)
  · intro e he
    exact h.newest e (hperm.mem_iff.mp (hsuffix.mem he))

theorem Tracks.rebalanceDeltas (h : Tracks hasAVX2 g last) (limit : Int) :
    Tracks hasAVX2 (g.rebalanceDeltas limit) last := by
  have hlimit : Tracks hasAVX2
      { g with maxEntries := if 0 < limit then limit.toNat else g.maxEntries } last :=
    ⟨h.nodup, h.newest⟩
  exact hlimit.rebalanceDeltasT false

theorem createDelta_size {compress : List UInt8 → Option (List UInt8)} {width height : Nat}
    {pixmap : Pixmap width height} {loc : TileLocation} {wid : Nat} {forceKeyframe : Bool}
    {mode : TileMode} {r : DeltaGenerator × Option (List UInt8) × DeltaData}
    (hr : g.createDelta compress hasAVX2 pixmap loc wid forceKeyframe mode = some r) :
    width ≤ 256 := by
  unfold createDelta at hr
  split at hr
  · cases hr
  · rename_i hsize
    omega

/-- Something is rendered: the entry of its location is what is rendered now. -/
theorem Tracks.createDelta {compress : List UInt8 → Option (List UInt8)}
    {pixmap : Pixmap tileSize tileSize} {loc : TileLocation} {wid : Nat} {forceKeyframe : Bool}
    {mode : TileMode} {r : DeltaGenerator × Option (List UInt8) × DeltaData}
    (h : Tracks hasAVX2 g last)
    (hr : g.createDelta compress hasAVX2 pixmap loc wid forceKeyframe mode = some r) :
    Tracks hasAVX2 r.1 (Function.update last loc (some (wid, pixmap))) ∧
      r.2.2 = .ofPixmap hasAVX2 pixmap ∧
      (r.2.1 = none ∨ ∃ w prev, last loc = some (w, prev) ∧ r.2.1 =
        makeDelta compress (.ofPixmap hasAVX2 prev) (.ofPixmap hasAVX2 pixmap) mode) := by
  unfold DeltaGenerator.createDelta at hr
  split at hr
  · cases hr
  · split at hr
    · rename_i hfind
      cases hr
      have hfresh : ∀ e ∈ g.deltaEntries, e.loc ≠ loc := by
        simpa [find] using hfind
      refine ⟨⟨?_, ?_⟩, rfl, .inl rfl⟩
      · rw [List.map_append, List.map_singleton, List.nodup_append]
        refine ⟨h.nodup, List.nodup_singleton _, ?_⟩
        intro l hl l' hl'
        obtain ⟨e, he, rfl⟩ := List.mem_map.mp hl
        rw [List.mem_singleton.mp hl']
        exact hfresh e he
      · intro e he
        rcases List.mem_append.mp he with hold | hnew
        · rw [Function.update_of_ne (hfresh e hold)]
          exact h.newest e hold
        · rw [List.mem_singleton.mp hnew, Function.update_self]
          exact ⟨pixmap, rfl, rfl⟩
    · rename_i cacheEntry hfind
      cases hr
      have hentry : cacheEntry ∈ g.deltaEntries ∧ cacheEntry.loc = loc := by
        refine ⟨List.mem_of_find?_eq_some hfind, ?_⟩
        simpa using List.find?_some hfind
      refine ⟨⟨?_, ?_⟩, rfl, ?_⟩
      · have hlocs : (g.deltaEntries.map fun e =>
            if e.loc = loc then ⟨loc, wid, .ofPixmap hasAVX2 pixmap⟩ else e).map DeltaEntry.loc =
              g.deltaEntries.map DeltaEntry.loc := by
          rw [List.map_map]
          apply List.map_congr_left
          intro e _
          simp only [Function.comp_apply]
          split
          · rename_i hloc
            exact hloc.symm
          · rfl
        rw [hlocs]
        exact h.nodup
      · intro e' he'
        obtain ⟨e, he, rfl⟩ := List.mem_map.mp he'
        split
        · rw [Function.update_self]
          exact ⟨pixmap, rfl, rfl⟩
        · rename_i hloc
          rw [Function.update_of_ne hloc]
          exact h.newest e he
      · cases forceKeyframe with
        | true => exact .inl rfl
        | false =>
            obtain ⟨prev, hlast, hdata⟩ := h.newest cacheEntry hentry.1
            rw [hentry.2] at hlast
            refine .inr ⟨_, prev, hlast, ?_⟩
            simp only [Bool.false_eq_true, if_false, hdata]

end DeltaGenerator

/-! ## What is sent -/

section Encodes

variable {tileSize : Nat}

/-- Data that is decompressed to the rows of a pixmap, whatever comes after it. -/
def EncodesKeyframe (z : Zstd) (hasAVX2 : Bool) (mode : TileMode)
    (pixmap : Pixmap tileSize tileSize) (output : List UInt8) : Prop :=
  ∃ compressed, output = 90 :: compressed ∧ ∀ rest,
    z.decompress (compressed ++ rest) =
      packRows hasAVX2 mode pixmap.rows ++ z.decompress rest

/-- Data that is decompressed to the delta from one pixmap to another. -/
def EncodesDelta (z : Zstd) (hasAVX2 : Bool) (mode : TileMode)
    (prev pixmap : Pixmap tileSize tileSize) (output : List UInt8) : Prop :=
  ∃ compressed, output = 68 :: compressed ∧ ∀ rest,
    z.decompress (compressed ++ rest) =
      makeDeltaBytes (.ofPixmap hasAVX2 prev) (.ofPixmap hasAVX2 pixmap) mode ++ z.decompress rest

variable {z : Zstd} {hasAVX2 : Bool} {mode : TileMode}

theorem packRows_length_le {rows : List (List Pixel)} (hsize : tileSize ≤ 256)
    (hrows : ∀ row ∈ rows, row.length = tileSize) : (packRows hasAVX2 mode rows).length ≤
      (tileSize * 4 + rleMaskUnits * 64 / 8 + 2) * rows.length := by
  induction rows with
  | nil => exact Nat.le_refl 0
  | cons row rows ih =>
      have hrow := hrows row List.mem_cons_self
      have hmasks := packForNetwork_length mode (initPixRowCpu row) (initPixRowCpu_masks_length row)
      have hdata : (initPixRowCpu row).rleData.length ≤ tileSize := by
        rw [initPixRowCpu_rleData row (hrow.le.trans hsize)]
        exact (changes_length_le _ row).trans hrow.le
      have hrest := ih fun row' hrow' => hrows row' (List.mem_cons_of_mem _ hrow')
      rw [packRows, List.flatMap_cons, List.length_append, initRow_eq, ← packRows, List.length_cons,
        Nat.mul_succ]
      have hunits : rleMaskUnits * 64 / 8 = 32 := rfl
      omega

theorem encodesDelta_makeDelta (hz : z.Lawful) {prev pixmap : Pixmap tileSize tileSize}
    {output : List UInt8} (h : makeDelta z.compress (.ofPixmap hasAVX2 prev)
      (.ofPixmap hasAVX2 pixmap) mode = some output) :
    EncodesDelta z hasAVX2 mode prev pixmap output := by
  unfold makeDelta at h
  split at h
  · cases h
  · simp only at h
    split at h
    · rename_i hsame
      refine ⟨[], (Option.some.inj h).symm, ?_⟩
      intro rest
      simp [makeDeltaBytes, hsame]
    · rename_i hchanged
      obtain ⟨compressed, hcompress, rfl⟩ := Option.map_eq_some_iff.mp h
      refine ⟨compressed, rfl, ?_⟩
      intro rest
      rw [hz.decompress_compress _ _ hcompress]
      simp only [makeDeltaBytes, if_neg hchanged]

open DeltaGenerator in
/-- The output is a keyframe of the pixmap, or a delta to what was rendered there last. -/
theorem DeltaGenerator.Tracks.compressOrDelta {g : DeltaGenerator} {last : Rendered tileSize}
    (hz : z.Lawful) (h : Tracks hasAVX2 g last) {pixmap : Pixmap tileSize tileSize}
    {loc : TileLocation} {wid : Nat} {forceKeyframe : Bool} {r : DeltaGenerator × List UInt8}
    (hr : g.compressOrDelta z hasAVX2 pixmap loc wid forceKeyframe mode = some r) :
    Tracks hasAVX2 r.1 (Function.update last loc (some (wid, pixmap))) ∧
      (EncodesKeyframe z hasAVX2 mode pixmap r.2 ∨
        ∃ w prev, last loc = some (w, prev) ∧ EncodesDelta z hasAVX2 mode prev pixmap r.2) := by
  obtain ⟨r', hcreate, rfl⟩ := Option.map_eq_some_iff.mp hr
  obtain ⟨htracks, hdata, houtput⟩ := h.createDelta hcreate
  have hpack : (r'.2.2.rows.map fun row => row.packForNetwork mode).flatten =
      packRows hasAVX2 mode pixmap.rows := by
    rw [hdata, packRows, List.flatMap_def]
    simp [DeltaData.ofPixmap, Function.comp_def]
  split
  · rename_i output hdelta
    refine ⟨htracks, .inr ?_⟩
    rcases houtput with hnone | ⟨w, prev, hlast, hmake⟩
    · cases hnone.symm.trans hdelta
    · exact ⟨w, prev, hlast, encodesDelta_makeDelta hz (hmake.symm.trans hdelta)⟩
  · dsimp only
    split
    · rename_i compressed hstream
      refine ⟨htracks, .inl ⟨compressed, rfl, ?_⟩⟩
      intro rest
      rw [hz.decompress_compressStream _ _ _ hstream, hpack]
    · rename_i hstream
      have hroom : (packRows hasAVX2 mode pixmap.rows).length ≤ _ :=
        packRows_length_le (createDelta_size hcreate) pixmap.row_length
      rw [pixmap.rows_length, ← hpack] at hroom
      have hfits := hz.fits _ _ hroom
      rw [hstream] at hfits
      cases hfits

end Encodes

end CoolOnline.Delta
