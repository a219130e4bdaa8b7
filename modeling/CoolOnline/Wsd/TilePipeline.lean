import Mathlib.Data.List.Induction
import CoolOnline.Browser.ImageFromDeltas
import CoolOnline.Kit.DeltaGenerator
import CoolOnline.Wsd.DeltaStream

/-! # From a rendered tile to the image of a client

The pixmap of a tile that the Kit renders, compressed to a keyframe or a delta, saved in the cache and
sent in part or as a whole to each session: what a client decodes is what was rendered last.
-/

namespace CoolOnline.Wsd

open Delta Browser NumberedLog

/-- Bytes as the characters of a message, and back. -/
def payloadOf (bytes : List UInt8) : Payload := bytes.map fun b => Char.ofNat b.toNat

def bytesOf (payload : Payload) : List UInt8 := payload.map fun c => UInt8.ofNat c.toNat

theorem bytesOf_payloadOf (bytes : List UInt8) : bytesOf (payloadOf bytes) = bytes := by
  simp only [bytesOf, payloadOf, List.map_map]
  conv_rhs => rw [← List.map_id bytes]
  apply List.map_congr_left
  intro b _
  have hlt : b.toNat < 256 := b.toNat_lt
  have hvalid : b.toNat.isValidChar := .inl (by omega)
  have hchar : (Char.ofNat b.toNat).toNat = b.toNat := by
    rw [Char.ofNat, dif_pos hvalid]
    rfl
  simp only [Function.comp_apply, id]
  rw [hchar, UInt8.ofNat_toNat]

theorem bytesOf_append (front back : Payload) : bytesOf (front ++ back) = bytesOf front ++ bytesOf back :=
  List.map_append

/-- The location that `doRender` gives to a tile. -/
def locationOf (desc : TileDesc) : TileLocation where
  left := desc.tilePosX
  top := desc.tilePosY
  size := desc.tileWidth
  part := desc.part
  canonicalViewId := desc.canonicalViewId
  viewMode := desc.mode

/-- A rendered tile with its wire id and its data. -/
structure RenderedTile (tileSize : Nat) where
  desc : TileDesc
  data : List UInt8
  pixmap : Pixmap tileSize tileSize

/-- The generator of the Kit, the tiles that are on their way to the cache, and the cache with the
sessions; `arrived` are the tiles of a key from the last keyframe on. -/
structure TilePipeline (σ : Type) (tileSize : Nat) where
  generator : DeltaGenerator
  nextId : Nat
  inFlight : List (RenderedTile tileSize)
  stream : DeltaStream σ
  arrived : TileKey → List (RenderedTile tileSize)

inductive PipelineEvent (σ : Type) (tileSize : Nat) where
  /-- A tile is rendered and compressed. -/
  | render (desc : TileDesc) (pixmap : Pixmap tileSize tileSize)
  | rebalanceDeltas (limit : Int)
  | dropCache
  /-- The cache gets the next tile. -/
  | arrive
  | sendTileNow (session : σ) (desc : TileDesc)
  | resetTileSeq (session : σ) (desc : TileDesc)

namespace TilePipeline

variable {σ : Type} {tileSize : Nat}

def start : TilePipeline σ tileSize := ⟨.new, 0, [], .start, fun _ => []⟩

/-- A tile with as many pixels as the browser expects, of a square of the document. -/
def IsSquare (tileSize : Nat) (desc : TileDesc) : Prop :=
  desc.width = tileSize ∧ desc.height = tileSize ∧ desc.tileHeight = desc.tileWidth

instance decidableIsSquare (desc : TileDesc) : Decidable (IsSquare tileSize desc) :=
  inferInstanceAs (Decidable (_ ∧ _))

/-- The tiles of a key after one more has arrived. -/
def addArrived (arrived : List (RenderedTile tileSize)) (t : RenderedTile tileSize) :
    List (RenderedTile tileSize) :=
  if TileData.isKeyframe (payloadOf t.data) then [t] else arrived ++ [t]

section

variable [DecidableEq σ] (z : Zstd) (hasAVX2 : Bool) (mode : TileMode)

/-- The tiles are squares, and the wire ids do not wrap. -/
def step (s : TilePipeline σ tileSize) : PipelineEvent σ tileSize → Option (TilePipeline σ tileSize)
  | .render desc pixmap =>
      if IsSquare tileSize desc ∧ s.nextId + 1 < 2 ^ 32 then
        let wid := toUInt32 (s.nextId + 1)
        (s.generator.compressOrDelta z hasAVX2 pixmap (locationOf desc) wid desc.isForcedKeyFrame
          mode).map fun r =>
            { s with
              generator := r.1
              nextId := wid
              inFlight := s.inFlight ++ [⟨{ desc with wireId := wid }, r.2, pixmap⟩] }
      else none
  | .rebalanceDeltas limit => some { s with generator := s.generator.rebalanceDeltas limit }
  | .dropCache => some { s with generator := s.generator.dropCache }
  | .arrive =>
      match s.inFlight with
      | [] => none
      | t :: inFlight =>
          (s.stream.step (.appendBlob t.desc (payloadOf t.data))).map fun stream =>
            { s with
              inFlight := inFlight
              stream := stream
              arrived := Function.update s.arrived (cacheKey t.desc)
                (addArrived (s.arrived (cacheKey t.desc)) t) }
  | .sendTileNow session desc =>
      (s.stream.step (.sendTileNow session desc)).map fun stream => { s with stream := stream }
  | .resetTileSeq session desc =>
      (s.stream.step (.resetTileSeq session desc)).map fun stream => { s with stream := stream }

end

/-! ## Tiles that go on from one another -/

section Chains

variable (z : Zstd) (hasAVX2 : Bool) (mode : TileMode)

/-- A tile is a keyframe, or a delta to the pixmap before it. -/
def Continues (prev : Option (Pixmap tileSize tileSize)) (t : RenderedTile tileSize) : Prop :=
  EncodesKeyframe z hasAVX2 mode t.pixmap t.data ∨
    ∃ p, prev = some p ∧ EncodesDelta z hasAVX2 mode p t.pixmap t.data

def Chain (prev : Option (Pixmap tileSize tileSize)) : List (RenderedTile tileSize) → Prop
  | [] => True
  | t :: ts => Continues z hasAVX2 mode prev t ∧ Chain (some t.pixmap) ts

/-- The pixmap of the last tile. -/
def newestOf (prev : Option (Pixmap tileSize tileSize)) :
    List (RenderedTile tileSize) → Option (Pixmap tileSize tileSize)
  | [] => prev
  | t :: ts => newestOf (some t.pixmap) ts

/-- Deltas only. -/
def Deltas (prev : Pixmap tileSize tileSize) : List (RenderedTile tileSize) → Prop
  | [] => True
  | t :: ts => EncodesDelta z hasAVX2 mode prev t.pixmap t.data ∧ Deltas t.pixmap ts

/-- A keyframe and deltas after it. -/
def Keyed : List (RenderedTile tileSize) → Prop
  | [] => True
  | t :: ts => EncodesKeyframe z hasAVX2 mode t.pixmap t.data ∧ Deltas z hasAVX2 mode t.pixmap ts

variable {z hasAVX2 mode} {prev : Option (Pixmap tileSize tileSize)}
  {ts : List (RenderedTile tileSize)} {t : RenderedTile tileSize}

theorem newestOf_append_singleton (prev : Option (Pixmap tileSize tileSize))
    (ts : List (RenderedTile tileSize)) (t : RenderedTile tileSize) :
    newestOf prev (ts ++ [t]) = some t.pixmap := by
  induction ts generalizing prev with
  | nil => rfl
  | cons t' ts ih => exact ih (some t'.pixmap)

theorem Chain.append_singleton (h : Chain z hasAVX2 mode prev ts)
    (ht : Continues z hasAVX2 mode (newestOf prev ts) t) :
    Chain z hasAVX2 mode prev (ts ++ [t]) := by
  induction ts generalizing prev with
  | nil => exact ⟨ht, trivial⟩
  | cons t' ts ih => exact ⟨h.1, ih h.2 ht⟩

theorem Deltas.append_singleton {first p : Pixmap tileSize tileSize}
    (h : Deltas z hasAVX2 mode first ts) (hp : newestOf (some first) ts = some p)
    (ht : EncodesDelta z hasAVX2 mode p t.pixmap t.data) :
    Deltas z hasAVX2 mode first (ts ++ [t]) := by
  induction ts generalizing first with
  | nil =>
      cases hp
      exact ⟨ht, trivial⟩
  | cons t' ts ih => exact ⟨h.1, ih h.2 hp⟩

theorem isKeyframe_of_encodesKeyframe {pixmap : Pixmap tileSize tileSize} {data : List UInt8}
    (h : EncodesKeyframe z hasAVX2 mode pixmap data) :
    TileData.isKeyframe (payloadOf data) = true := by
  obtain ⟨compressed, rfl, -⟩ := h
  rfl

theorem not_isKeyframe_of_encodesDelta {p pixmap : Pixmap tileSize tileSize} {data : List UInt8}
    (h : EncodesDelta z hasAVX2 mode p pixmap data) :
    TileData.isKeyframe (payloadOf data) = false := by
  obtain ⟨compressed, rfl, -⟩ := h
  rfl

/-- What arrives goes on with the tiles of its key, or starts them again. -/
theorem Keyed.addArrived (h : Keyed z hasAVX2 mode ts)
    (ht : Continues z hasAVX2 mode (newestOf none ts) t) :
    Keyed z hasAVX2 mode (addArrived ts t) ∧ newestOf none (TilePipeline.addArrived ts t) =
      some t.pixmap := by
  unfold TilePipeline.addArrived
  rcases ht with hkey | ⟨p, hp, hdelta⟩
  · rw [if_pos (isKeyframe_of_encodesKeyframe hkey)]
    exact ⟨⟨hkey, trivial⟩, rfl⟩
  · rw [not_isKeyframe_of_encodesDelta hdelta, if_neg Bool.false_ne_true]
    refine ⟨?_, newestOf_append_singleton none ts t⟩
    cases ts with
    | nil => cases hp
    | cons first later => exact ⟨h.1, h.2.append_singleton hp hdelta⟩

/-! ## Decoding -/

/-- The data of the tiles without the first byte of each. -/
def dataOf (ts : List (RenderedTile tileSize)) : List UInt8 := ts.flatMap fun t => t.data.tail

theorem decompress_deltas (hz : z.Lawful) {first : Pixmap tileSize tileSize}
    (h : Deltas z hasAVX2 mode first ts) :
    z.decompress (dataOf ts) = deltaBytesOf hasAVX2 mode first (ts.map RenderedTile.pixmap) := by
  induction ts generalizing first with
  | nil => exact hz.decompress_nil
  | cons t ts ih =>
      obtain ⟨⟨compressed, hdata, hdecompress⟩, hrest⟩ := h
      rw [dataOf, List.flatMap_cons, hdata, List.tail_cons, hdecompress]
      exact congrArg _ (ih hrest)

theorem getLastD_map_pixmap (first : Pixmap tileSize tileSize) :
    some ((ts.map RenderedTile.pixmap).getLastD first) = newestOf (some first) ts := by
  induction ts generalizing first with
  | nil => rfl
  | cons t ts ih =>
      rw [List.map_cons, List.getLastD_cons]
      exact ih t.pixmap

/-- A keyframe and its deltas are decoded to the last pixmap. -/
theorem Keyed.decode (hz : z.Lawful) (hsize : tileSize ≤ 256) (h : Keyed z hasAVX2 mode ts)
    {p : Pixmap tileSize tileSize} (hp : newestOf none ts = some p) :
    imageOfKeyframe (z.decompress (dataOf ts)) tileSize = some (imageBytes mode p.rows) := by
  cases ts with
  | nil => cases hp
  | cons first later =>
      obtain ⟨⟨compressed, hdata, hdecompress⟩, hdeltas⟩ := h
      have hlast : (later.map RenderedTile.pixmap).getLastD first.pixmap = p :=
        Option.some.inj ((getLastD_map_pixmap first.pixmap).trans hp)
      rw [dataOf, List.flatMap_cons, hdata, List.tail_cons, hdecompress, ← dataOf,
        decompress_deltas hz hdeltas, imageOfKeyframe_deltaBytesOf hasAVX2 hsize, hlast]

theorem Deltas.of_append {ts' : List (RenderedTile tileSize)} {first p : Pixmap tileSize tileSize}
    (h : Deltas z hasAVX2 mode first (ts ++ ts')) (hp : newestOf (some first) ts = some p) :
    Deltas z hasAVX2 mode first ts ∧ Deltas z hasAVX2 mode p ts' := by
  induction ts generalizing first with
  | nil =>
      cases hp
      exact ⟨trivial, h⟩
  | cons t ts ih =>
      obtain ⟨hfront, hback⟩ := ih h.2 hp
      exact ⟨⟨h.1, hfront⟩, hback⟩

theorem newestOf_append (prev : Option (Pixmap tileSize tileSize))
    (ts ts' : List (RenderedTile tileSize)) :
    newestOf prev (ts ++ ts') = newestOf (newestOf prev ts) ts' := by
  induction ts generalizing prev with
  | nil => rfl
  | cons t ts ih => exact ih (some t.pixmap)

theorem newestOf_none (ts : List (RenderedTile tileSize)) :
    newestOf none ts = ts.getLast?.map RenderedTile.pixmap := by
  induction ts using List.reverseRecOn with
  | nil => rfl
  | append_singleton ts t _ => simp [newestOf_append_singleton]

/-- The deltas after some of the tiles turn the image of these into the last one. -/
theorem Keyed.update (hz : z.Lawful) (hsize : tileSize ≤ 256) {ts' : List (RenderedTile tileSize)}
    (h : Keyed z hasAVX2 mode (ts ++ ts')) {p q : Pixmap tileSize tileSize}
    (hp : newestOf none ts = some p) (hq : newestOf none (ts ++ ts') = some q) :
    imageOfKeyframe (z.decompress (dataOf ts)) tileSize = some (imageBytes mode p.rows) ∧
      updateImageFromDeltas (imageBytes mode p.rows) (z.decompress (dataOf ts')) 0 tileSize =
        some (imageBytes mode q.rows) := by
  cases ts with
  | nil => cases hp
  | cons first later =>
      obtain ⟨hfront, hback⟩ := Deltas.of_append h.2 hp
      have hkeyed : Keyed z hasAVX2 mode (first :: later) := ⟨h.1, hfront⟩
      refine ⟨hkeyed.decode hz hsize hp, ?_⟩
      rw [newestOf_append, hp] at hq
      have hlast : (ts'.map RenderedTile.pixmap).getLastD p = q :=
        Option.some.inj ((getLastD_map_pixmap p).trans hq)
      rw [decompress_deltas hz hback, updateImageFromDeltas_deltaBytesOf hasAVX2 hsize, hlast]

end Chains

/-! ## What holds in every run -/

variable {z : Zstd} {hasAVX2 : Bool} {mode : TileMode}

/-- The tiles of a key that are on their way. -/
def onTheWay (s : TilePipeline σ tileSize) (key : TileKey) : List (RenderedTile tileSize) :=
  s.inFlight.filter fun t => decide (cacheKey t.desc = key)

/-- What was rendered last for a key. -/
def newest (s : TilePipeline σ tileSize) (key : TileKey) : Option (Pixmap tileSize tileSize) :=
  newestOf (newestOf none (s.arrived key)) (s.onTheWay key)

/-- The cache of the generator holds what was rendered last, whatever is on its way. -/
def GeneratorKept (hasAVX2 : Bool) (s : TilePipeline σ tileSize) : Prop :=
  ∃ last : DeltaGenerator.Rendered tileSize, s.generator.Tracks hasAVX2 last ∧
    ∀ desc, IsSquare tileSize desc → ∀ wid pixmap, last (locationOf desc) = some (wid, pixmap) →
      s.newest (cacheKey desc) = some pixmap

structure Kept (z : Zstd) (hasAVX2 : Bool) (mode : TileMode) (s : TilePipeline σ tileSize) :
    Prop where
  generator : s.GeneratorKept hasAVX2
  chain : ∀ key, Chain z hasAVX2 mode (newestOf none (s.arrived key)) (s.onTheWay key)
  keyed : ∀ key, Keyed z hasAVX2 mode (s.arrived key)
  frames : ∀ key, s.stream.frames key =
    (s.arrived key).map fun t => (t.desc.wireId, payloadOf t.data)
  stream : s.stream.Inv

theorem kept_start : Kept z hasAVX2 mode (start : TilePipeline σ tileSize) where
  generator := ⟨fun _ => none, DeltaGenerator.tracks_new, fun _ _ _ _ h => by cases h⟩
  chain := fun _ => trivial
  keyed := fun _ => trivial
  frames := fun _ => rfl
  stream := DeltaStream.inv_start

/-- Tiles that are squares of the document have a key for each location. -/
theorem cacheKey_eq_iff {desc desc' : TileDesc} (h : IsSquare tileSize desc)
    (h' : IsSquare tileSize desc') : cacheKey desc' = cacheKey desc ↔ locationOf desc' = locationOf desc := by
  obtain ⟨hwidth, hheight, hsquare⟩ := h
  obtain ⟨hwidth', hheight', hsquare'⟩ := h'
  simp only [cacheKey, locationOf, TileKey.mk.injEq, TileLocation.mk.injEq, hwidth, hheight,
    hsquare, hwidth', hheight', hsquare']
  tauto

theorem filter_append_tile (inFlight : List (RenderedTile tileSize)) (t : RenderedTile tileSize)
    (key : TileKey) : (inFlight ++ [t]).filter (fun t => decide (cacheKey t.desc = key)) =
      inFlight.filter (fun t => decide (cacheKey t.desc = key)) ++
        if cacheKey t.desc = key then [t] else [] := by
  rw [List.filter_append]
  split
  · rename_i hkey
    rw [List.filter_cons_of_pos (by simpa using hkey), List.filter_nil]
  · rename_i hkey
    rw [List.filter_cons_of_neg (by simpa using hkey), List.filter_nil]

/-- A tile that is a keyframe, or a delta to what was rendered there last, is sent on its way. -/
theorem Kept.push {s : TilePipeline σ tileSize} (h : Kept z hasAVX2 mode s) {desc : TileDesc}
    (hsquare : IsSquare tileSize desc) {t : RenderedTile tileSize}
    (hdesc : cacheKey t.desc = cacheKey desc) {g : DeltaGenerator} {wid : Nat}
    (hg : ∀ last : DeltaGenerator.Rendered tileSize, s.generator.Tracks hasAVX2 last →
      g.Tracks hasAVX2 (Function.update last (locationOf desc) (some (wid, t.pixmap))) ∧
        (EncodesKeyframe z hasAVX2 mode t.pixmap t.data ∨ ∃ w prev,
          last (locationOf desc) = some (w, prev) ∧
            EncodesDelta z hasAVX2 mode prev t.pixmap t.data)) :
    Kept z hasAVX2 mode
      { s with generator := g, nextId := wid, inFlight := s.inFlight ++ [t] } := by
  obtain ⟨last, htracks, hlast⟩ := h.generator
  obtain ⟨htracks', houtput⟩ := hg last htracks
  constructor
  case generator =>
    refine ⟨_, htracks', ?_⟩
    intro desc' hsquare' wid' pixmap' hlast'
    simp only [newest, onTheWay, filter_append_tile, hdesc]
    by_cases hloc : locationOf desc' = locationOf desc
    · rw [hloc, Function.update_self] at hlast'
      cases hlast'
      rw [if_pos ((cacheKey_eq_iff hsquare hsquare').mpr hloc).symm, newestOf_append_singleton]
    · rw [Function.update_of_ne hloc] at hlast'
      have hne : cacheKey desc ≠ cacheKey desc' := fun heq =>
        hloc ((cacheKey_eq_iff hsquare hsquare').mp heq.symm)
      rw [if_neg hne, List.append_nil]
      exact hlast desc' hsquare' wid' pixmap' hlast'
  case chain =>
    intro key
    simp only [onTheWay, filter_append_tile, hdesc]
    split
    · rename_i hkey
      apply (h.chain key).append_singleton
      rcases houtput with hkeyframe | ⟨w, prev, hprev, hdelta⟩
      · exact .inl hkeyframe
      · have hnewest := hlast desc hsquare w prev hprev
        rw [hkey] at hnewest
        exact .inr ⟨prev, hnewest, hdelta⟩
    · rw [List.append_nil]
      exact h.chain key
  case keyed => exact h.keyed
  case frames => exact h.frames
  case stream => exact h.stream

theorem Kept.setGenerator {s : TilePipeline σ tileSize} (h : Kept z hasAVX2 mode s)
    {g : DeltaGenerator} (hg : ∀ last : DeltaGenerator.Rendered tileSize,
      s.generator.Tracks hasAVX2 last → g.Tracks hasAVX2 last) :
    Kept z hasAVX2 mode { s with generator := g } := by
  obtain ⟨last, htracks, hlast⟩ := h.generator
  exact ⟨⟨last, hg last htracks, hlast⟩, h.chain, h.keyed, h.frames, h.stream⟩

variable [DecidableEq σ]

/-- The next tile arrives at the cache. -/
theorem Kept.arrive {s : TilePipeline σ tileSize} (h : Kept z hasAVX2 mode s)
    {t : RenderedTile tileSize} {inFlight : List (RenderedTile tileSize)}
    (hflight : s.inFlight = t :: inFlight) {stream : DeltaStream σ}
    (hstream : s.stream.step (.appendBlob t.desc (payloadOf t.data)) = some stream) :
    Kept z hasAVX2 mode { s with
      inFlight := inFlight
      stream := stream
      arrived := Function.update s.arrived (cacheKey t.desc)
        (TilePipeline.addArrived (s.arrived (cacheKey t.desc)) t) } := by
  have hinv := DeltaStream.inv_step hstream h.stream
  simp only [DeltaStream.step, Option.ite_none_right_eq_some, Option.map_eq_some_iff] at hstream
  obtain ⟨-, tile, -, rfl⟩ := hstream
  have hmine : s.onTheWay (cacheKey t.desc) =
      t :: inFlight.filter fun t' => decide (cacheKey t'.desc = cacheKey t.desc) := by
    rw [onTheWay, hflight, List.filter_cons_of_pos (by simp)]
  have hother (key : TileKey) (hkey : key ≠ cacheKey t.desc) : s.onTheWay key =
      inFlight.filter fun t' => decide (cacheKey t'.desc = key) := by
    rw [onTheWay, hflight, List.filter_cons_of_neg (by simpa using Ne.symm hkey)]
  have hchain := h.chain (cacheKey t.desc)
  rw [hmine] at hchain
  obtain ⟨hkeyed, hnewest⟩ := (h.keyed (cacheKey t.desc)).addArrived hchain.1
  constructor
  case generator =>
    obtain ⟨last, htracks, hlast⟩ := h.generator
    refine ⟨last, htracks, ?_⟩
    intro desc hsquare wid pixmap hloc
    have hbefore := hlast desc hsquare wid pixmap hloc
    unfold newest at hbefore
    simp only [newest, onTheWay]
    by_cases hkey : cacheKey desc = cacheKey t.desc
    · rw [hkey, hmine] at hbefore
      rw [hkey, Function.update_self, hnewest]
      exact hbefore
    · rw [hother _ hkey] at hbefore
      rw [Function.update_of_ne hkey]
      exact hbefore
  case chain =>
    intro key
    simp only [onTheWay]
    by_cases hkey : key = cacheKey t.desc
    · rw [hkey, Function.update_self, hnewest]
      exact hchain.2
    · rw [Function.update_of_ne hkey]
      have hbefore := h.chain key
      rw [hother key hkey] at hbefore
      exact hbefore
  case keyed =>
    rw [Function.forall_update_iff _ fun _ ts => Keyed z hasAVX2 mode ts]
    exact ⟨hkeyed, fun key _ => h.keyed key⟩
  case frames =>
    intro key
    simp only
    by_cases hkey : key = cacheKey t.desc
    · rw [hkey, Function.update_self, Function.update_self, h.frames, addFrame,
        TilePipeline.addArrived]
      split
      · rfl
      · rw [List.map_append]
        rfl
    · rw [Function.update_of_ne hkey, Function.update_of_ne hkey]
      exact h.frames key
  case stream => exact hinv

/-- What the sessions are sent does not change the tiles. -/
theorem Kept.setStream {s : TilePipeline σ tileSize} (h : Kept z hasAVX2 mode s)
    {stream : DeltaStream σ} {e : DeltaEvent σ} (hstep : s.stream.step e = some stream)
    (hframes : stream.frames = s.stream.frames) :
    Kept z hasAVX2 mode { s with stream := stream } where
  generator := h.generator
  chain := h.chain
  keyed := h.keyed
  frames := by
    intro key
    rw [hframes]
    exact h.frames key
  stream := DeltaStream.inv_step hstep h.stream

theorem step_kept {s s' : TilePipeline σ tileSize} {e : PipelineEvent σ tileSize} (hz : z.Lawful)
    (h : Kept z hasAVX2 mode s) (hstep : s.step z hasAVX2 mode e = some s') :
    Kept z hasAVX2 mode s' := by
  cases e with
  | render desc pixmap =>
      simp only [step, Option.ite_none_right_eq_some, Option.map_eq_some_iff] at hstep
      obtain ⟨⟨hsquare, -⟩, r, hr, rfl⟩ := hstep
      exact h.push hsquare rfl fun last htracks => htracks.compressOrDelta hz hr
  | rebalanceDeltas limit =>
      cases hstep
      exact h.setGenerator fun last htracks => htracks.rebalanceDeltas limit
  | dropCache =>
      cases hstep
      exact h.setGenerator fun last htracks => htracks.rebalanceDeltasT true
  | arrive =>
      simp only [step] at hstep
      split at hstep
      · cases hstep
      · rename_i t inFlight hflight
        obtain ⟨stream, hstream, rfl⟩ := Option.map_eq_some_iff.mp hstep
        exact h.arrive hflight hstream
  | sendTileNow session desc =>
      simp only [step, Option.map_eq_some_iff] at hstep
      obtain ⟨stream, hstream, rfl⟩ := hstep
      refine h.setStream hstream ?_
      simp only [DeltaStream.step, Option.bind_eq_some_iff, Option.ite_none_right_eq_some,
        Option.some.injEq] at hstream
      obtain ⟨tile, -, -, rfl⟩ := hstream
      rfl
  | resetTileSeq session desc =>
      simp only [step, Option.map_eq_some_iff] at hstep
      obtain ⟨stream, hstream, rfl⟩ := hstep
      refine h.setStream hstream ?_
      cases hstream
      rfl

theorem run_kept {es : List (PipelineEvent σ tileSize)} {s : TilePipeline σ tileSize}
    (hz : z.Lawful) (hrun : run (step z hasAVX2 mode) start es = some s) :
    Kept z hasAVX2 mode s :=
  run_invariant _ (fun _ _ _ hstep h => step_kept hz h hstep) hrun kept_start

/-! ## What the cache gets -/

/-- The tiles that are on their way are newer than those in the cache, in their order. -/
structure Numbered (s : TilePipeline σ tileSize) : Prop where
  increasing : (s.inFlight.map fun t => t.desc.wireId).Pairwise (· < ·)
  issued : ∀ t ∈ s.inFlight, t.desc.wireId ≤ s.nextId
  cached : ∀ key, lastWid (s.stream.tiles key) ≤ s.nextId
  newer : ∀ key, ∀ t ∈ s.inFlight, lastWid (s.stream.tiles key) < t.desc.wireId
  none : ∀ key, s.stream.tiles key = none → s.arrived key = []

omit [DecidableEq σ] in
theorem numbered_start : Numbered (start : TilePipeline σ tileSize) where
  increasing := List.Pairwise.nil
  issued := by simp [start]
  cached := fun _ => Nat.le_refl 0
  newer := by simp [start]
  none := fun _ _ => rfl

omit [DecidableEq σ] in
theorem Numbered.setStream {s : TilePipeline σ tileSize} (h : Numbered s) {stream : DeltaStream σ}
    (htiles : stream.tiles = s.stream.tiles) : Numbered { s with stream := stream } := by
  constructor
  case increasing => exact h.increasing
  case issued => exact h.issued
  case cached =>
    intro key
    simpa only [htiles] using h.cached key
  case newer =>
    intro key
    simpa only [htiles] using h.newer key
  case none =>
    intro key
    simpa only [htiles] using h.none key

theorem lastWid_saveFrame {cached : Option TileData} {desc : TileDesc} {data : Payload}
    {tile : TileData} (h : saveFrame cached desc data = some tile) :
    lastWid (some tile) = desc.wireId := by
  cases cached with
  | none =>
      simp only [saveFrame, Option.ite_none_right_eq_some, Option.some.injEq] at h
      obtain ⟨-, rfl⟩ := h
      exact TileData.appendBlob_getLastD _ _ _
  | some t =>
      cases h
      exact TileData.appendBlob_getLastD _ _ _

theorem step_numbered {s s' : TilePipeline σ tileSize} {e : PipelineEvent σ tileSize}
    (h : Numbered s) (hstep : s.step z hasAVX2 mode e = some s') : Numbered s' := by
  cases e with
  | render desc pixmap =>
      simp only [step, Option.ite_none_right_eq_some, Option.map_eq_some_iff] at hstep
      obtain ⟨⟨-, hwrap⟩, r, -, rfl⟩ := hstep
      have hwid : toUInt32 (s.nextId + 1) = s.nextId + 1 := Nat.mod_eq_of_lt hwrap
      rw [hwid]
      constructor
      case increasing =>
        simp only [List.map_append, List.map_singleton, List.pairwise_append, List.mem_map,
          List.mem_singleton]
        refine ⟨h.increasing, List.pairwise_singleton _ _, ?_⟩
        rintro _ ⟨t, ht, rfl⟩ _ rfl
        exact Nat.lt_succ_of_le (h.issued t ht)
      case issued =>
        intro t ht
        rcases List.mem_append.mp ht with hold | hnew
        · exact (h.issued t hold).trans (Nat.le_succ _)
        · rw [List.mem_singleton.mp hnew]
      case cached => exact fun key => (h.cached key).trans (Nat.le_succ _)
      case newer =>
        intro key t ht
        rcases List.mem_append.mp ht with hold | hnew
        · exact h.newer key t hold
        · rw [List.mem_singleton.mp hnew]
          exact Nat.lt_succ_of_le (h.cached key)
      case none => exact h.none
  | rebalanceDeltas limit =>
      cases hstep
      exact ⟨h.increasing, h.issued, h.cached, h.newer, h.none⟩
  | dropCache =>
      cases hstep
      exact ⟨h.increasing, h.issued, h.cached, h.newer, h.none⟩
  | arrive =>
      simp only [step] at hstep
      split at hstep
      · cases hstep
      · rename_i t inFlight hflight
        simp only [DeltaStream.step, Option.ite_none_right_eq_some, Option.map_eq_some_iff] at hstep
        obtain ⟨_, ⟨-, tile, hsave, rfl⟩, rfl⟩ := hstep
        have hlast := lastWid_saveFrame hsave
        have hincreasing := h.increasing
        have hissued := h.issued
        have hnewer := h.newer
        simp only [hflight, List.map_cons, List.pairwise_cons, List.mem_map, forall_exists_index,
          and_imp, forall_apply_eq_imp_iff₂, List.forall_mem_cons] at hincreasing hissued hnewer
        constructor
        case increasing => exact hincreasing.2
        case issued => exact hissued.2
        case cached =>
          rw [Function.forall_update_iff _ fun _ tile => lastWid tile ≤ s.nextId, hlast]
          exact ⟨hissued.1, fun key _ => h.cached key⟩
        case newer =>
          rw [Function.forall_update_iff _ fun _ tile =>
            ∀ t' ∈ inFlight, lastWid tile < t'.desc.wireId, hlast]
          exact ⟨hincreasing.1, fun key _ => (hnewer key).2⟩
        case none =>
          intro key hnone
          simp only at hnone ⊢
          by_cases hkey : key = cacheKey t.desc
          · rw [hkey, Function.update_self] at hnone
            cases hnone
          · rw [Function.update_of_ne hkey] at hnone ⊢
            exact h.none key hnone
  | sendTileNow session desc =>
      simp only [step, Option.map_eq_some_iff, DeltaStream.step, Option.bind_eq_some_iff,
        Option.ite_none_right_eq_some, Option.some.injEq] at hstep
      obtain ⟨_, ⟨tile, -, -, rfl⟩, rfl⟩ := hstep
      exact h.setStream rfl
  | resetTileSeq session desc =>
      simp only [step, Option.map_eq_some_iff, DeltaStream.step, Option.some.injEq] at hstep
      obtain ⟨_, rfl, rfl⟩ := hstep
      exact h.setStream rfl

/-- Data as it is. -/
def storing : Zstd := ⟨some, fun _ rows => some rows.flatten, id⟩

theorem lawful_storing : storing.Lawful where
  decompress_nil := rfl
  decompress_compress := by
    rintro data _ ⟨⟩ rest
    rfl
  decompress_compressStream := by
    rintro size rows _ ⟨⟩ rest
    rfl
  fits := fun _ _ _ => rfl

/-- A tile of four pixels under a wire id. -/
def smallTile (wireId : Nat) : TileDesc :=
  { TileDesc.parseDefaults with
    width := 2, height := 2, tileWidth := 30, tileHeight := 30, oldWireId := 1, wireId := wireId }

def allOf (pix : Pixel) : Pixmap 2 2 := ⟨[[pix, pix], [pix, pix]], rfl, by simp⟩

/-- A keyframe that is sent, and a delta. -/
def twoTiles : List (PipelineEvent Nat 2) :=
  [.render (smallTile 0) (allOf ⟨255, 0, 0, 255⟩), .arrive, .sendTileNow 0 (smallTile 1),
    .render (smallTile 0) (allOf ⟨0, 255, 0, 255⟩), .arrive]

/-- The frames of tiles, as the sessions know them. -/
def logOf (ts : List (RenderedTile tileSize)) : List (Nat × Payload) :=
  bytes (ts.map fun t => (t.desc.wireId, payloadOf t.data))

theorem bytesOf_contents_logOf (ts : List (RenderedTile tileSize)) :
    bytesOf (contents (logOf ts)) = dataOf ts := by
  induction ts with
  | nil => rfl
  | cons t ts ih =>
      have htail : bytesOf (payloadOf t.data).tail = t.data.tail := by
        rw [payloadOf, ← List.map_tail]
        exact bytesOf_payloadOf t.data.tail
      calc bytesOf (contents (logOf (t :: ts)))
          = bytesOf (payloadOf t.data).tail ++ bytesOf (contents (logOf ts)) := bytesOf_append _ _
        _ = dataOf (t :: ts) := by rw [htail, ih, dataOf, dataOf, List.flatMap_cons]

theorem logOf_take (ts : List (RenderedTile tileSize)) (k : Nat) :
    (logOf ts).take k = logOf (ts.take k) := by
  simp only [logOf, bytes, List.map_take]

theorem logOf_drop (ts : List (RenderedTile tileSize)) (k : Nat) :
    (logOf ts).drop k = logOf (ts.drop k) := by
  simp only [logOf, bytes, List.map_drop]

theorem logOf_ne_nil {ts : List (RenderedTile tileSize)} (h : logOf ts ≠ []) :
    ∃ p, newestOf none ts = some p := by
  cases ts with
  | nil => exact absurd rfl h
  | cons t ts => exact ⟨_, (getLastD_map_pixmap t.pixmap).symm⟩

end TilePipeline

end CoolOnline.Wsd
