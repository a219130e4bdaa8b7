import CoolOnline.Wsd.TileDesc
import CoolOnline.Library.History

/-! # Rendered tiles

`doRender` of `common/RenderTiles.hpp`, whose workers append what they encoded in the order in
which they finish, and `DocumentBroker::handleTileCombinedResponse`, which cuts the message up
again.
-/

namespace CoolOnline

namespace Word

def tileMessage : Payload := ['t', 'i', 'l', 'e', ':']
def tilecombineMessage : Payload := ['t', 'i', 'l', 'e', 'c', 'o', 'm', 'b', 'i', 'n', 'e', ':']

end Word

namespace RenderTiles

/-- What the encoders make of the tile at an index; encoding a PNG can fail. -/
structure Encoders where
  compressOrDelta : Nat → Payload
  encodeSubBufferToPNG : Nat → Option Payload

/-- What a worker has done: the tile, its wire id and its data. -/
structure Encoded where
  desc : TileDesc
  wireId : Nat
  data : Payload

/-- The id of the tile at an index: the counter is taken up once for each tile before. -/
def getCurrentWireId (nextId index : Nat) : Nat := toUInt32 (nextId + index + 1)

theorem getCurrentWireId_lt (nextId index : Nat) : getCurrentWireId nextId index < 2 ^ 32 := by
  rw [getCurrentWireId]
  exact toUInt32_lt _

/-- The worker of the tile at an index. -/
def work (encoders : Encoders) (tiles : List TileDesc) (nextId index : Nat) : Option Encoded :=
  tiles[index]?.bind fun desc =>
    if desc.isPreview then
      (encoders.encodeSubBufferToPNG index).map fun data =>
        ⟨desc, getCurrentWireId nextId index, data⟩
    else some ⟨desc, getCurrentWireId nextId index, encoders.compressOrDelta index⟩

/-- What the workers append to. -/
structure Output where
  output : Payload
  renderedTiles : TileCombined

/-- What a worker does under the lock. -/
def Output.append (o : Output) (e : Encoded) : Output :=
  ⟨o.output ++ e.data, o.renderedTiles.pushRendered e.desc e.wireId e.data.length⟩

/-- The workers finish in an order of the indices; those that fail return before the lock. -/
def runWorkers (encoders : Encoders) (tiles : List TileDesc) (nextId : Nat) (order : List Nat) :
    Output :=
  (order.filterMap (work encoders tiles nextId)).foldl Output.append
    ⟨[], TileCombined.emptyBuilder⟩

/-- The data of each tile, from the sizes. -/
def cutTiles : List TileDesc → Payload → List (TileDesc × Payload) × Payload
  | [], data => ([], data)
  | tile :: tiles, data =>
      let (saved, rest) := cutTiles tiles (data.drop tile.imgSize.toNat)
      ((tile, data.take tile.imgSize.toNat) :: saved, rest)

/-- The messages of `doRender`. -/
def doRender (encoders : Encoders) (tileCombined : TileCombined) (nextId : Nat)
    (order : List Nat) : List Payload :=
  let o := runWorkers encoders tileCombined.tiles nextId order
  if tileCombined.tiles.isEmpty then []
  else if tileCombined.isCombined then
    [o.renderedTiles.serialize Word.tilecombineMessage ['\n'] ++ o.output]
  else
    (cutTiles o.renderedTiles.tiles o.output).1.map fun (tile, data) =>
      tile.serialize Word.tileMessage ['\n'] ++ data

end RenderTiles

/-- `DocumentBroker::handleTileCombinedResponse`: the tiles to save, each with its data, and what
is left of the message. A first line that cannot be parsed is only logged. -/
def handleTileCombinedResponse (message : Payload) : List (TileDesc × Payload) × Payload :=
  let firstLine := message.takeWhile (· != '\n')
  let data := message.drop (firstLine.length + 1)
  if firstLine.length + 1 ≤ message.length then
    match TileCombined.parse firstLine with
    | some tileCombined => RenderTiles.cutTiles tileCombined.tiles data
    | none => ([], data)
  else ([], data)

namespace RenderTiles

/-- The size of what an encoder makes fits the `int` of `TileDesc`. -/
structure Encoders.SizesFit (encoders : Encoders) : Prop where
  compressOrDelta : ∀ i, (encoders.compressOrDelta i).length < 2 ^ 31
  encodeSubBufferToPNG : ∀ i data, encoders.encodeSubBufferToPNG i = some data →
    data.length < 2 ^ 31

/-! ## What the workers append -/

/-- The tile as it is pushed, with a wire id and a size. -/
@[simps] def pushed (desc : TileDesc) (wireId : Nat) (imgSize : Int) : TileDesc :=
  { desc with wireId := wireId, imgSize := imgSize }

def Encoded.rendered (e : Encoded) : TileDesc :=
  pushed e.desc e.wireId (toInt32 e.data.length)

/-- The builder after some workers, the first of which had the tile `first`. -/
def builder (first : TileDesc) (es : List Encoded) : TileCombined :=
  { TileCombined.ofParams first.canonicalViewId first.part first.mode first.width first.height
      first.tileWidth first.tileHeight with
    tiles := es.map Encoded.rendered
    hasWids := true
    hasOldWids := first.oldWireId != 0
    isCombined := 1 < es.length
    hasImgSizes := true }

variable {encoders : Encoders} {tiles : List TileDesc} {nextId : Nat} {first : TileDesc}

theorem append_first (e : Encoded) :
    Output.append ⟨[], TileCombined.emptyBuilder⟩ e = ⟨e.data, builder e.desc [e]⟩ := by
  simp [Output.append, TileCombined.pushRendered, TileCombined.emptyBuilder, builder,
    TileCombined.ofParams, Encoded.rendered, pushed]

theorem append_builder (hpart : 0 ≤ first.part) (data : Payload) (es : List Encoded)
    (e : Encoded) :
    Output.append ⟨data, builder first es⟩ e = ⟨data ++ e.data, builder first (es ++ [e])⟩ := by
  have hset : ¬ (builder first es).part < 0 := by simpa [builder, TileCombined.ofParams] using hpart
  simp [Output.append, TileCombined.pushRendered, hset]
  simp [builder, Encoded.rendered, pushed]

/-- The data stands in the order of the tiles. -/
theorem foldl_append (hpart : 0 ≤ first.part) (es es' : List Encoded) :
    es'.foldl Output.append ⟨es.flatMap Encoded.data, builder first es⟩ =
      ⟨(es ++ es').flatMap Encoded.data, builder first (es ++ es')⟩ := by
  induction es' generalizing es with
  | nil => simp
  | cons e es' ih =>
      have hnext : es.flatMap Encoded.data ++ e.data = (es ++ [e]).flatMap Encoded.data := by
        simp
      rw [List.foldl_cons, append_builder hpart, hnext, ih]
      simp

theorem of_work {i : Nat} {e : Encoded} (hsizes : encoders.SizesFit)
    (h : work encoders tiles nextId i = some e) :
    e.desc ∈ tiles ∧ e.wireId < 2 ^ 32 ∧ e.data.length < 2 ^ 31 := by
  obtain ⟨desc, hdesc, h⟩ := Option.bind_eq_some_iff.mp h
  have hmem := List.mem_of_getElem? hdesc
  split at h
  · obtain ⟨data, hdata, rfl⟩ := Option.map_eq_some_iff.mp h
    exact ⟨hmem, getCurrentWireId_lt nextId i, hsizes.encodeSubBufferToPNG i data hdata⟩
  · cases h
    exact ⟨hmem, getCurrentWireId_lt nextId i, hsizes.compressOrDelta i⟩

/-! ## Cutting the message -/

/-- Data that stands in the order of the tiles is cut by their sizes. -/
theorem cutTiles_flatMap {f : Encoded → TileDesc} {es : List Encoded}
    (h : ∀ e ∈ es, (f e).imgSize = e.data.length) :
    cutTiles (es.map f) (es.flatMap Encoded.data) = (es.map fun e => (f e, e.data), []) := by
  induction es with
  | nil => rfl
  | cons e es ih =>
      have hsize : (f e).imgSize.toNat = e.data.length := by
        rw [h e (by simp), Int.toNat_natCast]
      have hrest := ih fun e' he' => h e' (by simp [he'])
      simp only [List.map_cons, List.flatMap_cons, cutTiles, hsize, List.drop_left,
        List.take_left, hrest]

end RenderTiles

/-- The first line and the data are kept apart. -/
theorem handleTileCombinedResponse_eq {line data : Payload} (hline : '\n' ∉ line) :
    handleTileCombinedResponse (line ++ '\n' :: data) =
      match TileCombined.parse line with
      | some tileCombined => RenderTiles.cutTiles tileCombined.tiles data
      | none => ([], data) := by
  have hall : ∀ c ∈ line, (c != '\n') = true := by
    intro c hc
    have hne : c ≠ '\n' := by
      rintro rfl
      exact hline hc
    simpa using hne
  have hfirst : (line ++ '\n' :: data).takeWhile (· != '\n') = line := by
    rw [List.takeWhile_append_of_pos hall]
    simp
  have hdata : (line ++ '\n' :: data).drop (line.length + 1) = data := by
    have hcons : line ++ '\n' :: data = (line ++ ['\n']) ++ data := by simp
    rw [hcons, List.drop_left' (by simp)]
  simp only [handleTileCombinedResponse, hfirst, hdata]
  rw [if_pos (by simp)]

namespace RenderTiles

section Framing

variable {encoders : Encoders} {tileCombined : TileCombined} {nextId : Nat} {order : List Nat}

/-- A tile that was pushed is read back, with the size of its data. -/
theorem describes_sent {first e : Encoded} (huniform : tileCombined.Uniform)
    (hfirst : first.desc ∈ tileCombined.tiles) (hdesc : e.desc ∈ tileCombined.tiles)
    (hwid : e.wireId < 2 ^ 32) (hsize : e.data.length < 2 ^ 31) (es : List Encoded) :
    (builder first.desc es).Describes ((builder first.desc es).sent e.rendered) := by
  obtain ⟨hw, hsame⟩ := huniform.describes _ hdesc
  obtain ⟨-, hsame'⟩ := huniform.describes _ hfirst
  have hlength : IsInt32 e.data.length := by
    simp only [IsInt32]
    omega
  have himg : toInt32 e.data.length = e.data.length := toInt32_of_isInt32 hlength
  have hvalid := hw.valid
  simp only [TileDesc.mk.injEq] at hsame hsame'
  simp only [TileDesc.isValid, Bool.and_eq_true, decide_eq_true_eq] at hvalid
  have himgFlag : (builder first.desc es).hasImgSizes = true := rfl
  have hwidFlag : (builder first.desc es).hasWids = true := rfl
  refine ⟨⟨?_, ?_, ?_, ?_, ?_, ?_, ?_⟩, ?_⟩
  · simp [TileDesc.isValid, Encoded.rendered, himgFlag, himg, hvalid]
  · simpa [Encoded.rendered] using hw.tilePosX
  · simpa [Encoded.rendered] using hw.tilePosY
  · simpa [Encoded.rendered] using hw.ver
  · simpa [Encoded.rendered, himgFlag, himg] using hlength
  · have hold := hw.oldWireId
    simp only [TileCombined.sent_oldWireId, Encoded.rendered, pushed_oldWireId]
    split
    · exact hold
    · omega
  · simpa [Encoded.rendered, hwidFlag] using hwid
  · simp [TileCombined.sent, Encoded.rendered, builder, TileCombined.ofParams,
      hsame, hsame']

theorem isToken_tilecombineMessage : StringVector.IsToken Word.tilecombineMessage := by decide

/-- A tile as it is saved. -/
def saved (t : TileDesc) (data : Payload) : Int × Int × Int × Nat × Payload :=
  (t.tilePosX, t.tilePosY, t.ver, t.wireId, data)

/-- What a worker has encoded. -/
def Encoded.saved (e : Encoded) : Int × Int × Int × Nat × Payload :=
  (e.desc.tilePosX, e.desc.tilePosY, e.desc.ver, e.wireId, e.data)

/-- The message of some workers, the first of which is `e`, is cut into their data. -/
theorem handle_rendered {e : Encoded} {es : List Encoded} (huniform : tileCombined.Uniform)
    (hes : ∀ e' ∈ e :: es, e'.desc ∈ tileCombined.tiles ∧ e'.wireId < 2 ^ 32 ∧
      e'.data.length < 2 ^ 31) :
    handleTileCombinedResponse
        ((builder e.desc (e :: es)).serialize Word.tilecombineMessage ['\n'] ++
          (e :: es).flatMap Encoded.data) =
      ((e :: es).map fun e' => ((builder e.desc (e :: es)).sent e'.rendered, e'.data), []) := by
  have hfirst := hes e (by simp)
  obtain ⟨-, hsame⟩ := huniform.describes _ hfirst.1
  simp only [TileDesc.mk.injEq] at hsame
  have hparams : (builder e.desc (e :: es)).ParamsInt32 := by
    obtain ⟨hview, hpart, hmode, hwidth, hheight, htileWidth, htileHeight⟩ := huniform.params
    constructor <;> simpa [builder, TileCombined.ofParams, hsame]
  have htiles : ∀ t ∈ (builder e.desc (e :: es)).tiles,
      (builder e.desc (e :: es)).Describes ((builder e.desc (e :: es)).sent t) := by
    intro t ht
    obtain ⟨e', he', rfl⟩ := List.mem_map.mp ht
    obtain ⟨hdesc, hwid, hsize⟩ := hes e' he'
    exact describes_sent huniform hfirst.1 hdesc hwid hsize (e :: es)
  have hparse := TileCombined.parse_serialize isToken_tilecombineMessage (by decide) (by decide)
    (List.cons_ne_nil _ _) hparams htiles
  have hline := (builder e.desc (e :: es)).not_mem_serialize isToken_tilecombineMessage
  rw [TileCombined.serialize_append, List.append_assoc, List.singleton_append,
    handleTileCombinedResponse_eq hline, hparse]
  simp only [builder, List.map_map]
  apply cutTiles_flatMap
  intro e' he'
  have hlength : IsInt32 e'.data.length := by
    have hsize := (hes e' he').2.2
    simp only [IsInt32]
    omega
  simp [Encoded.rendered, toInt32_of_isInt32 hlength]

/-- In whatever order the workers finish, the message of combined tiles is cut into the data of
each worker, for the tile and the wire id of that worker, and nothing is left. -/
theorem doRender_framed (nextId : Nat) (order : List Nat)
    (hcombined : tileCombined.isCombined = true)
    (hne : tileCombined.tiles ≠ []) (huniform : tileCombined.Uniform)
    (hsizes : encoders.SizesFit)
    (horder : order.Perm (List.range tileCombined.tiles.length)) :
    ∃ message tiles, doRender encoders tileCombined nextId order = [message] ∧
      handleTileCombinedResponse message = (tiles, []) ∧
      (tiles.map fun (t, data) => saved t data).Perm
        ((List.range tileCombined.tiles.length).filterMap fun i =>
          (work encoders tileCombined.tiles nextId i).map Encoded.saved) := by
  have hperm := horder.filterMap (work encoders tileCombined.tiles nextId)
  have hmap : ((List.range tileCombined.tiles.length).filterMap fun i =>
      (work encoders tileCombined.tiles nextId i).map Encoded.saved) =
      ((List.range tileCombined.tiles.length).filterMap
        (work encoders tileCombined.tiles nextId)).map Encoded.saved := by
    rw [List.map_filterMap]
  have hes : ∀ e ∈ order.filterMap (work encoders tileCombined.tiles nextId),
      e.desc ∈ tileCombined.tiles ∧ e.wireId < 2 ^ 32 ∧ e.data.length < 2 ^ 31 := by
    intro e he
    obtain ⟨i, -, hi⟩ := List.mem_filterMap.mp he
    exact of_work hsizes hi
  have hempty : tileCombined.tiles.isEmpty = false := by simpa using hne
  simp only [doRender, runWorkers, hempty, hcombined, Bool.false_eq_true, if_false, if_true, hmap]
  generalize order.filterMap (work encoders tileCombined.tiles nextId) = es at hperm hes ⊢
  cases es with
  | nil =>
      -- All workers failed: the message describes no tiles, and there is no data.
      have hparse : TileCombined.parse
          (TileCombined.emptyBuilder.serialize Word.tilecombineMessage []) = none := by
        decide +kernel
      have hline := TileCombined.emptyBuilder.not_mem_serialize isToken_tilecombineMessage
      refine ⟨_, [], rfl, ?_, (hperm.map _)⟩
      rw [List.foldl_nil, TileCombined.serialize_append, List.append_assoc,
        List.singleton_append, handleTileCombinedResponse_eq hline, hparse]
  | cons e es =>
      have hpart : 0 ≤ e.desc.part := by
        have hvalid := (huniform.describes _ (hes e (by simp)).1).wellFormed.valid
        simp only [TileDesc.isValid, Bool.and_eq_true, decide_eq_true_eq] at hvalid
        exact hvalid.1.1.1.1.1.1.1.1.2
      have hfold := foldl_append hpart [e] es
      simp only [List.flatMap_cons, List.flatMap_nil, List.append_nil, List.singleton_append]
        at hfold
      rw [List.foldl_cons, append_first, hfold]
      refine ⟨_, _, rfl, handle_rendered huniform hes, ?_⟩
      have hwidFlag : (builder e.desc (e :: es)).hasWids = true := rfl
      have hsaved : ((fun (t, data) => saved t data) ∘ fun e' : Encoded =>
          ((builder e.desc (e :: es)).sent e'.rendered, e'.data)) = Encoded.saved := by
        funext e'
        simp [saved, Encoded.saved, Encoded.rendered, hwidFlag]
      rw [List.map_map, hsaved]
      exact hperm.map _

/-- Two tiles, of which the second is rendered first; the first has no data. -/
theorem doRender_framed_outOfOrder : ∃ tileCombined message tiles,
    TileCombined.parse ("tilecombine nviewid=1 part=0 width=256 height=256 tileposx=0,3840 " ++
      "tileposy=0,0 tilewidth=3840 tileheight=3840 ver=5,6 oldwid=4,0").toList =
        some tileCombined ∧
      doRender ⟨fun i => if i = 0 then [] else ['\n'], fun _ => none⟩ tileCombined 7 [1, 0] =
        [message] ∧
      handleTileCombinedResponse message = (tiles, []) ∧
      (tiles.map fun (t, data) => saved t data).Perm
        [(0, 0, 5, 8, []), (3840, 0, 6, 9, ['\n'])] := by
  obtain ⟨tileCombined, hparse, hcombined, hlength, hwork⟩ := exists_of_any
    (o := TileCombined.parse ("tilecombine nviewid=1 part=0 width=256 height=256 " ++
      "tileposx=0,3840 tileposy=0,0 tilewidth=3840 tileheight=3840 ver=5,6 oldwid=4,0").toList)
    (P := fun c => c.isCombined = true ∧ c.tiles.length = 2 ∧
      ((List.range 2).filterMap fun i =>
        (work ⟨fun i => if i = 0 then [] else ['\n'], fun _ => none⟩ c.tiles 7 i).map
          Encoded.saved) ==
        [(0, 0, 5, 8, []), (3840, 0, 6, 9, ['\n'])]) (by decide +kernel)
  have hne : tileCombined.tiles ≠ [] := by
    rintro hnil
    simp [hnil] at hlength
  have hsizes : (⟨fun i => if i = 0 then [] else ['\n'], fun _ => none⟩ : Encoders).SizesFit := by
    refine ⟨fun i => ?_, by simp⟩
    by_cases hi : i = 0 <;> simp [hi]
  obtain ⟨message, tiles, hrender, hhandle, hperm⟩ := doRender_framed 7 [1, 0] hcombined hne
    (TileCombined.Uniform.of_parse hparse).1 hsizes (by rw [hlength]; decide)
  rw [hlength, eq_of_beq hwork] at hperm
  exact ⟨tileCombined, message, tiles, hparse, hrender, hhandle, hperm⟩

end Framing

end RenderTiles

end CoolOnline
