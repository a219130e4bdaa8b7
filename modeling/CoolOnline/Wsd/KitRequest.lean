import CoolOnline.Wsd.TileRequests

/-! # What the Kit reads of a tile request

The old wire ids that the Kit reads of the messages for a single tile and for combined tiles; a
tile whose old wire id is 0 or absent is rendered as a keyframe.
-/

namespace CoolOnline.Wsd

open StringVector COOLProtocol

/-! ## The old wire ids that the Kit reads -/

/-- What `TileDesc::parse` reads of the old wire id, before it checks the description. -/
def readOldWireId (message : Payload) : Nat :=
  ((tokenize message ' ').foldl TileDesc.readToken TileDesc.parseDefaults).oldWireId

/-- The old wire ids of the tiles that a message asks for. -/
def oldWireIds (message : Payload) : List Nat :=
  if getFirstToken message = Word.tilecombine then
    ((TileCombined.parse message).map fun c => c.tiles.map (·.oldWireId)).getD []
  else [readOldWireId message]

theorem setArg_oldWireId (t : TileDesc) (arg : Payload) (value : Int) :
    (t.setArg arg value).oldWireId = t.oldWireId := by
  have hite {p : Prop} [Decidable p] {a b : TileDesc} (ha : a.oldWireId = t.oldWireId)
      (hb : b.oldWireId = t.oldWireId) : (if p then a else b).oldWireId = t.oldWireId := by
    split
    · exact ha
    · exact hb
  rw [TileDesc.setArg]
  repeat' apply hite
  all_goals rfl

/-- Only its own token sets the old wire id. -/
theorem readToken_oldWireId (t : TileDesc) {token : Payload}
    (h : getUInt32 token Word.oldwid = none) : (t.readToken token).oldWireId = t.oldWireId := by
  simp only [TileDesc.readToken, h]
  cases getUInt32 token Word.wid with
  | some wireId => rfl
  | none =>
      cases getNameIntegerPair token with
      | none => rfl
      | some pair => exact setArg_oldWireId t pair.1 pair.2

theorem foldl_readToken_oldWireId {tokens : List Payload} (t : TileDesc)
    (h : ∀ token ∈ tokens, getUInt32 token Word.oldwid = none) :
    (tokens.foldl TileDesc.readToken t).oldWireId = t.oldWireId := by
  induction tokens generalizing t with
  | nil => rfl
  | cons token tokens ih =>
      rw [List.foldl_cons, ih _ fun token ht => h token (by simp [ht]),
        readToken_oldWireId t (h token (by simp))]

theorem getUInt32_eq_none {name key : Payload} (hname : '=' ∉ name) (hkey : '=' ∉ key)
    (hne : name ≠ key) (value : Payload) : getUInt32 (name ++ '=' :: value) key = none := by
  rw [getUInt32, if_neg]
  rintro ⟨-, hstart⟩
  obtain ⟨rest, hrest⟩ := List.isPrefixOf_iff_prefix.mp hstart
  have hread : TileCombined.parseNameValuePair (key ++ '=' :: rest) = some (key, rest) :=
    TileCombined.parseNameValuePair_eq hkey
  have hsame : key ++ '=' :: rest = name ++ '=' :: value := by simpa using hrest
  rw [hsame, TileCombined.parseNameValuePair_eq hname] at hread
  exact hne (congrArg Prod.fst (Option.some.inj hread))

theorem getUInt32_oldwid {n : Nat} (hn : n ≠ 0) :
    ∃ m, m ≠ 0 ∧ getUInt32 (Word.oldwid ++ '=' :: Text.decimal n) Word.oldwid = some m := by
  have hnonempty : 0 < (Text.decimal n).length := List.length_pos_of_ne_nil (Text.decimal_ne_nil n)
  have hread : safeAtoi (Text.decimal n) = min (n : Int) (2 ^ 31 - 1) := by
    simp only [safeAtoi, Text.leadingInt_decimal, Option.getD_some]
    omega
  refine ⟨toUInt32 (min (n : Int) (2 ^ 31 - 1)), ?_, ?_⟩
  · rw [toUInt32]
    omega
  · have hdrop : (Word.oldwid ++ '=' :: Text.decimal n).drop (Word.oldwid.length + 1) =
        Text.decimal n := rfl
    rw [getUInt32, if_pos, hdrop, hread]
    refine ⟨?_, ?_⟩
    · simp only [List.length_append, List.length_cons]
      omega
    · simp [Word.oldwid, List.isPrefixOf]

/-- The old wire id is printed once, if it is not 0. -/
theorem pairs_split (t : TileDesc) : ∃ before after, t.pairs = before ++
      (if t.oldWireId ≠ 0 then [(Word.oldwid, Text.decimal t.oldWireId)] else []) ++ after ∧
    ∀ pair ∈ before ++ after, '=' ∉ pair.1 ∧ pair.1 ≠ Word.oldwid := by
  have hnames : ∀ name ∈ [Word.nviewid, Word.part, Word.width, Word.height, Word.tileposx,
      Word.tileposy, Word.tilewidth, Word.tileheight, Word.wid, Word.ver, Word.tileId, Word.imgsize,
      Word.mode], '=' ∉ name ∧ name ≠ Word.oldwid := by
    decide
  refine ⟨_, _, by simp only [TileDesc.pairs, List.append_assoc]; rfl, ?_⟩
  rintro ⟨name, value⟩ hmem
  apply hnames
  simp only [List.mem_append, List.mem_cons, List.mem_ite_nil_right, Prod.mk.injEq,
    List.not_mem_nil, or_false] at hmem
  simp only [List.mem_cons, List.not_mem_nil, or_false]
  grind

/-- The Kit reads an old wire id of 0 where the description has none. -/
theorem readOldWireId_eq_zero_iff (t : TileDesc) :
    readOldWireId (Word.tileRequest ++ [' '] ++ t.serialize [] []) = 0 ↔ t.oldWireId = 0 := by
  obtain ⟨before, after, hpairs, hothers⟩ := pairs_split t
  have htokens : tokenize (Word.tileRequest ++ [' '] ++ t.serialize [] []) ' ' =
      Word.tileRequest :: t.tokens := by
    have hline : '\n' ∉ Word.tileRequest ++ [' '] ++ t.serialize [] [] := by
      rw [← t.serialize_start]
      exact t.not_mem_serialize (by decide)
    have hnul : (Word.tileRequest ++ [' '] ++ t.serialize [] []).head? ≠ some '\x00' := by
      simp [Word.tileRequest]
    have htile : Text.IsField ' ' Word.tileRequest := by decide
    rw [tokenize_eq_fields hline hnul, List.append_assoc, List.singleton_append,
      Text.fields_append_sep htile, t.serialize_eq, List.append_nil, Text.intercalate_cons,
      List.nil_append, Text.fields_flatMap_cons fun token ht => (TileDesc.isToken_of_mem_tokens ht).1]
  have hnone (pairs : List (Payload × Payload)) (hpairs : pairs ⊆ before ++ after) :
      ∀ token ∈ pairs.map (fun pair => pair.1 ++ '=' :: pair.2),
        getUInt32 token Word.oldwid = none := by
    intro token ht
    obtain ⟨⟨name, value⟩, hmem, rfl⟩ := List.mem_map.mp ht
    obtain ⟨hequals, hne⟩ := hothers _ (hpairs hmem)
    exact getUInt32_eq_none hequals (by decide) hne value
  rw [readOldWireId, htokens, TileDesc.tokens_eq, hpairs, List.foldl_cons, List.map_append,
    List.map_append, List.foldl_append, List.foldl_append,
    foldl_readToken_oldWireId _ (hnone after (List.subset_append_right _ _))]
  have hbefore : ((before.map fun pair => pair.1 ++ '=' :: pair.2).foldl TileDesc.readToken
      (TileDesc.parseDefaults.readToken Word.tileRequest)).oldWireId = 0 := by
    rw [foldl_readToken_oldWireId _ (hnone before (List.subset_append_left _ _))]
    decide
  by_cases hold : t.oldWireId = 0
  · simp only [hold, ne_eq, not_true_eq_false, if_false, List.map_nil, List.foldl_nil, iff_true]
    exact hbefore
  · obtain ⟨n, hn, hread⟩ := getUInt32_oldwid hold
    simp only [hold, ne_eq, not_false_eq_true, if_true, List.map_cons, List.map_nil,
      List.foldl_cons, List.foldl_nil, TileDesc.readToken, hread, iff_false]
    exact hn

theorem oldWireIds_tile (t : TileDesc) :
    oldWireIds (Word.tileRequest ++ [' '] ++ t.serialize [] []) =
      [readOldWireId (Word.tileRequest ++ [' '] ++ t.serialize [] [])] := by
  have hfirst : getFirstToken (Word.tileRequest ++ [' '] ++ t.serialize [] []) ≠
      Word.tilecombine := by
    simp [getFirstToken, Word.tileRequest, Word.tilecombine]
  rw [oldWireIds, if_neg hfirst]

/-- The fields of a tile are of their types, and what its constructor accepts. -/
structure Typed (t : TileDesc) : Prop where
  wellFormed : t.WellFormed
  params : (TileCombined.ofTile t).ParamsInt32

theorem Typed.setIds {tile : TileDesc} {version : Int} {oldWireId wireId : Nat} (h : Typed tile)
    (hversion : IsInt32 version) (hold : oldWireId < 2 ^ 32) (hwid : wireId < 2 ^ 32) :
    Typed { tile with ver := version, oldWireId := oldWireId, wireId := wireId } := by
  obtain ⟨⟨hvalid, hx, hy, -, himg, -, -⟩, hparams⟩ := h
  obtain ⟨hview, hpart, hmode, hwidth, hheight, htileWidth, htileHeight⟩ := hparams
  exact ⟨⟨hvalid, hx, hy, hversion, himg, hold, hwid⟩,
    ⟨hview, hpart, hmode, hwidth, hheight, htileWidth, htileHeight⟩⟩

theorem Typed.setVersion {tile : TileDesc} {version : Int} {oldWireId : Nat} (h : Typed tile)
    (hversion : IsInt32 version) (hold : oldWireId < 2 ^ 32) :
    Typed { tile with ver := version, oldWireId := oldWireId } :=
  h.setIds hversion hold h.wellFormed.wireId

theorem Typed.setCanonicalViewId {tile : TileDesc} {view : Int} (h : Typed tile)
    (hview : 0 ≤ view ∧ IsInt32 view) : Typed { tile with canonicalViewId := view } := by
  obtain ⟨⟨hvalid, hx, hy, hver, himg, hold, hwid⟩, hparams⟩ := h
  obtain ⟨-, hpart, hmode, hwidth, hheight, htileWidth, htileHeight⟩ := hparams
  refine ⟨⟨?_, hx, hy, hver, himg, hold, hwid⟩,
    ⟨hview.2, hpart, hmode, hwidth, hheight, htileWidth, htileHeight⟩⟩
  simp only [TileDesc.isValid, Bool.and_eq_true, decide_eq_true_eq] at hvalid ⊢
  have hpositive := hview.1
  simp only [hvalid, and_true]
  omega

theorem getFirstToken_serialize (c : TileCombined) :
    getFirstToken (c.serialize Word.tilecombine []) = Word.tilecombine := by
  simp [TileCombined.serialize, TileCombined.field, getFirstToken, Word.tilecombine]

open TileCombined in
/-- What is left out of a message is 0. -/
theorem describes_sent {c : TileCombined} {t : TileDesc} (h : c.Describes { t with id := -1 }) :
    c.Describes (c.sent t) := by
  obtain ⟨hw, hsame⟩ := h
  simp only [TileDesc.mk.injEq] at hsame
  have hvalid := hw.valid
  simp only [TileDesc.isValid, Bool.and_eq_true, decide_eq_true_eq, hsame] at hvalid
  refine ⟨⟨?_, ?_, ?_, ?_, ?_, ?_, ?_⟩, ?_⟩
  · cases himg : c.hasImgSizes <;> simp [TileDesc.isValid, himg, hsame, hvalid]
  · simpa using hw.tilePosX
  · simpa using hw.tilePosY
  · simpa using hw.ver
  · rw [sent_imgSize]
    split
    · exact hw.imgSize
    · decide
  · rw [sent_oldWireId]
    split
    · exact hw.oldWireId
    · decide
  · rw [sent_wireId]
    split
    · exact hw.wireId
    · decide
  · simp [sent, hsame]

open TileCombined in
/-- The Kit reads the old wire ids of tiles that are sent as a combined one. -/
theorem sendTileCombine_eq {first : TileDesc} {rest : List TileDesc}
    (htyped : ∀ t ∈ first :: rest, Typed t)
    (hsame : ∀ t ∈ first :: rest, first.sameTileCombineParams t = true) :
    ∃ message, sendTileCombine (first :: rest) = some ⟨first :: rest, message⟩ ∧
      oldWireIds message = (first :: rest).map (·.oldWireId) := by
  have hcreate := create_eq fun t ht => ⟨(htyped t ht).wellFormed, hsame t ht⟩
  have hparams : (ofParams first.canonicalViewId first.part first.mode first.width first.height
      first.tileWidth first.tileHeight).ParamsInt32 := by
    obtain ⟨hview, hpart, hmode, hwidth, hheight, htileWidth, htileHeight⟩ :=
      (htyped first (by simp)).params
    exact ⟨hview, hpart, hmode, hwidth, hheight, htileWidth, htileHeight⟩
  have huniform := (Uniform.of_new hparams hcreate).1
  rw [sendTileCombine, hcreate]
  refine ⟨_, rfl, ?_⟩
  rw [oldWireIds, if_pos (getFirstToken_serialize _), parse_serialize (by decide) (by decide)
    (by decide) (by simp) huniform.params fun t ht => describes_sent (huniform.describes t ht)]
  simp only [Option.map_some, Option.getD_some, List.map_map]
  apply List.map_congr_left
  intro t ht
  by_cases hold : t.oldWireId = 0
  · simp [bare, hold]
  · have hflag : ((first :: rest).map bare).any (fun t => t.oldWireId != 0) = true := by
      simp only [List.any_map, List.any_eq_true]
      exact ⟨t, ht, by simpa [bare] using hold⟩
    simp only [Function.comp_apply, sent_oldWireId, hflag, if_true]
    rfl

end CoolOnline.Wsd
