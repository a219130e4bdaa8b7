import CoolOnline.Library.History
import CoolOnline.Wsd.TileMessage
import Mathlib.Data.List.Induction

/-! # What is read back of the messages

`TileDesc::parse` and `TileCombined::parse` of `wsd/TileDesc.hpp`, of what `serialize` writes.
-/

namespace CoolOnline

open StringVector

/-! ## Words before the fields -/

/-- The fields of a text that a separator ends are split off first. -/
theorem Text.fields_append_sep_cons (sep : Char) (before after : Payload) :
    Text.fields sep (before ++ sep :: after) =
      Text.fields sep before ++ Text.fields sep after := by
  rw [Text.fields, List.splitOn_append_cons_self, List.filter_append]
  rfl

theorem StringVector.tokenize_append_flatMap {start : Payload} (hline : '\n' ∉ start)
    (hnul : start.head? ≠ some '\x00') {tokens : List Payload}
    (htokens : ∀ token ∈ tokens, IsToken token) :
    tokenize (start ++ tokens.flatMap fun token => ' ' :: token) ' ' =
      Text.fields ' ' start ++ tokens := by
  have htext : '\n' ∉ start ++ tokens.flatMap fun token => ' ' :: token := by
    intro hmem
    rcases List.mem_append.mp hmem with hmem | hmem
    · exact hline hmem
    · rcases List.mem_flatMap.mp hmem with ⟨token, ht, hmem⟩
      rcases List.mem_cons.mp hmem with hblank | hmem
      · exact absurd hblank (by decide)
      · exact (htokens token ht).2 hmem
  have hhead : (start ++ tokens.flatMap fun token => ' ' :: token).head? ≠ some '\x00' := by
    cases start with
    | nil => cases tokens <;> simp
    | cons c start => exact hnul
  rw [tokenize_eq_fields htext hhead]
  cases tokens with
  | nil => rw [List.flatMap_nil, List.append_nil, List.append_nil]
  | cons token tokens =>
      have hfields := Text.fields_flatMap_cons fun token ht => (htokens token ht).1
      rw [List.flatMap_cons, List.cons_append, Text.fields_append_sep_cons]
      rw [List.flatMap_cons, List.cons_append, Text.fields_sep_cons] at hfields
      rw [hfields]

namespace TileDesc

variable (t : TileDesc)

/-- The fields of type `int`. -/
def intFields : List Int :=
  [t.canonicalViewId, t.part, t.mode, t.width, t.height, t.tilePosX, t.tilePosY, t.tileWidth,
    t.tileHeight, t.ver, t.imgSize, t.id]

/-- A tile of the constructor: each field is of its type. -/
structure Typed : Prop where
  valid : t.isValid = true
  ints : ∀ n ∈ t.intFields, IsInt32 n
  oldWireId : t.oldWireId < 2 ^ 32
  wireId : t.wireId < 2 ^ 32

instance : Decidable t.Typed :=
  decidable_of_iff
    (t.isValid = true ∧ (∀ n ∈ t.intFields, IsInt32 n) ∧ t.oldWireId < 2 ^ 32 ∧ t.wireId < 2 ^ 32)
    ⟨fun h => ⟨h.1, h.2.1, h.2.2.1, h.2.2.2⟩, fun h => ⟨h.1, h.2, h.3, h.4⟩⟩

/-- The numbers that are read as they are printed. -/
structure ReadBack : Prop where
  ints : ∀ n ∈ t.intFields, -2 ^ 31 < n ∧ n < 2 ^ 31 - 1
  oldWireId : t.oldWireId < 2 ^ 31
  wireId : t.wireId < 2 ^ 31

variable {t}

theorem Typed.wellFormed {t : TileDesc} (h : t.Typed) : t.WellFormed := by
  have hints := h.ints
  simp only [intFields, List.forall_mem_cons] at hints
  rcases hints with ⟨-, -, -, -, -, hx, hy, -, -, hver, himg, -, -⟩
  exact ⟨h.valid, hx, hy, hver, himg, h.oldWireId, h.wireId⟩

/-! ## Reading one field -/

theorem safeAtoi_decimal (n : Int) :
    safeAtoi (Text.decimal n) = max (-(2 ^ 31 - 1)) (min n (2 ^ 31 - 1)) := by
  rw [safeAtoi, Text.leadingInt_decimal]
  rfl

theorem getNameIntegerPair_eq (token : Payload) :
    getNameIntegerPair token = (TileCombined.parseNameValuePair token).bind fun (name, value) =>
      if -2 ^ 31 < safeAtoi value ∧ safeAtoi value < 2 ^ 31 - 1 then some (name, safeAtoi value)
      else none := by
  rw [getNameIntegerPair, TileCombined.parseNameValuePair]
  split <;> rfl

theorem getNameIntegerPair_decimal {name : Payload} (hname : '=' ∉ name) (n : Int) :
    getNameIntegerPair (name ++ '=' :: Text.decimal n) =
      if n < 2 ^ 31 - 1 then some (name, max (-(2 ^ 31 - 1)) n) else none := by
  rw [getNameIntegerPair_eq, TileCombined.parseNameValuePair_eq hname, Option.bind_some]
  dsimp only
  rw [safeAtoi_decimal]
  by_cases hn : n < 2 ^ 31 - 1
  · rw [if_pos hn, if_pos (by omega), Int.min_eq_left (by omega)]
  · rw [if_neg hn, if_neg (by omega)]

theorem eq_of_isPrefixOf {name key value : Payload} (hname : '=' ∉ name) (hkey : '=' ∉ key)
    (h : (key ++ ['=']).isPrefixOf (name ++ '=' :: value) = true) : name = key := by
  rcases List.isPrefixOf_iff_prefix.mp h with ⟨rest, hrest⟩
  have hsplit : TileCombined.parseNameValuePair (name ++ '=' :: value) = some (name, value) :=
    TileCombined.parseNameValuePair_eq hname
  rw [← hrest, List.append_assoc, List.singleton_append,
    TileCombined.parseNameValuePair_eq hkey] at hsplit
  cases hsplit
  rfl

theorem getUInt32_of_ne {name key : Payload} (value : Payload) (hname : '=' ∉ name)
    (hkey : '=' ∉ key) (hne : name ≠ key) : getUInt32 (name ++ '=' :: value) key = none := by
  rw [getUInt32, if_neg]
  intro h
  exact hne (eq_of_isPrefixOf hname hkey h.2)

theorem getUInt32_decimal (key : Payload) (n : Int) :
    getUInt32 (key ++ '=' :: Text.decimal n) key =
      some (toUInt32 (max (-(2 ^ 31 - 1)) (min n (2 ^ 31 - 1)))) := by
  have hlength := List.length_pos_iff.mpr (Text.decimal_ne_nil n)
  have hstart : (key ++ ['=']).isPrefixOf (key ++ '=' :: Text.decimal n) = true := by
    rw [List.isPrefixOf_iff_prefix]
    exact ⟨Text.decimal n, by simp⟩
  have hdrop : (key ++ '=' :: Text.decimal n).drop (key.length + 1) = Text.decimal n := by
    simp [List.drop_append]
  rw [getUInt32, if_pos ⟨by simp; omega, hstart⟩, hdrop, safeAtoi_decimal]

/-- The names of the fields of type `int`. -/
def intNames : List Payload :=
  [Word.nviewid, Word.part, Word.width, Word.height, Word.tileposx, Word.tileposy,
    Word.tilewidth, Word.tileheight, Word.ver, Word.tileId, Word.imgsize, Word.mode]

theorem of_mem_intNames {name : Payload} (h : name ∈ intNames) :
    '=' ∉ name ∧ name ≠ Word.oldwid ∧ name ≠ Word.wid := by
  revert name
  decide

theorem readToken_int (t : TileDesc) {name : Payload} (hname : name ∈ intNames) (n : Int) :
    t.readToken (name ++ '=' :: Text.decimal n) =
      if n < 2 ^ 31 - 1 then t.setArg name (max (-(2 ^ 31 - 1)) n) else t := by
  rcases of_mem_intNames hname with ⟨heq, hold, hwid⟩
  rw [readToken, getUInt32_of_ne _ heq (by decide) hold, getUInt32_of_ne _ heq (by decide) hwid,
    getNameIntegerPair_decimal heq]
  by_cases hn : n < 2 ^ 31 - 1
  · rw [if_pos hn, if_pos hn]
  · rw [if_neg hn, if_neg hn]

theorem toUInt32_clamped (n : Nat) :
    toUInt32 (max (-(2 ^ 31 - 1)) (min (n : Int) (2 ^ 31 - 1))) = min n (2 ^ 31 - 1) := by
  rw [toUInt32]
  omega

theorem readToken_oldwid (t : TileDesc) (n : Nat) :
    t.readToken (Word.oldwid ++ '=' :: Text.decimal n) =
      { t with oldWireId := min n (2 ^ 31 - 1) } := by
  rw [readToken, getUInt32_decimal, toUInt32_clamped]

theorem readToken_wid (t : TileDesc) (n : Nat) :
    t.readToken (Word.wid ++ '=' :: Text.decimal n) = { t with wireId := min n (2 ^ 31 - 1) } := by
  rw [readToken, getUInt32_of_ne _ (by decide) (by decide) (by decide), getUInt32_decimal,
    toUInt32_clamped]

/-- A word is no field. -/
theorem readToken_word (t : TileDesc) {token : Payload} (h : '=' ∉ token) :
    t.readToken token = t := by
  have hkey (key : Payload) : getUInt32 token key = none := by
    rw [getUInt32, if_neg]
    intro hstart
    have hstarts := List.isPrefixOf_iff_prefix.mp hstart.2
    exact h (hstarts.subset (by simp))
  rw [readToken, hkey, hkey, getNameIntegerPair, if_neg (by simpa using h)]

/-! ## Reading all the fields -/

theorem foldl_readToken_words (t : TileDesc) {words : List Payload}
    (h : ∀ word ∈ words, '=' ∉ word) : words.foldl readToken t = t := by
  induction words with
  | nil => rfl
  | cons word words ih =>
      rw [List.foldl_cons, readToken_word t (h word List.mem_cons_self)]
      exact ih fun word hword => h word (List.mem_cons_of_mem _ hword)

/-- A field that is left out has the value it starts with. -/
theorem foldl_optional {p : Prop} [Decidable p] {t t' : TileDesc} {token : Payload}
    (hread : t.readToken token = t') (hskip : ¬p → t = t') :
    (if p then [token] else []).foldl readToken t = t' := by
  split
  case isTrue => exact hread
  case isFalse hp => exact hskip hp

theorem readToken_readBack (t : TileDesc) {name : Payload} (hname : name ∈ intNames) {n : Int}
    (h : -2 ^ 31 < n ∧ n < 2 ^ 31 - 1) :
    t.readToken (name ++ '=' :: Text.decimal n) = t.setArg name n := by
  rw [readToken_int t hname, if_pos h.2, Int.max_eq_right (by omega)]

section SetArg

variable (t : TileDesc) (n : Int)

theorem setArg_nviewid : t.setArg Word.nviewid n = { t with canonicalViewId := n } := rfl

theorem setArg_part : t.setArg Word.part n = { t with part := n } := rfl

theorem setArg_mode : t.setArg Word.mode n = { t with mode := n } := rfl

theorem setArg_width : t.setArg Word.width n = { t with width := n } := rfl

theorem setArg_height : t.setArg Word.height n = { t with height := n } := rfl

theorem setArg_tileposx : t.setArg Word.tileposx n = { t with tilePosX := n } := rfl

theorem setArg_tileposy : t.setArg Word.tileposy n = { t with tilePosY := n } := rfl

theorem setArg_tilewidth : t.setArg Word.tilewidth n = { t with tileWidth := n } := rfl

theorem setArg_tileheight : t.setArg Word.tileheight n = { t with tileHeight := n } := rfl

theorem setArg_ver : t.setArg Word.ver n = { t with ver := n } := rfl

theorem setArg_imgsize : t.setArg Word.imgsize n = { t with imgSize := n } := rfl

theorem setArg_tileId : t.setArg Word.tileId n = { t with id := n } := rfl

end SetArg

theorem foldl_readToken_tokens (h : t.ReadBack) (hvalid : t.isValid = true) (hid : -1 ≤ t.id) :
    t.tokens.foldl readToken parseDefaults = t := by
  have hints := h.ints
  simp only [intFields, List.forall_mem_cons] at hints
  rcases hints with
    ⟨hview, hpart, hmode, hwidth, hheight, hx, hy, htileWidth, htileHeight, hver, himg, hnum, -⟩
  have hsize : 0 ≤ t.imgSize := by
    simp only [isValid, Bool.and_eq_true, decide_eq_true_eq] at hvalid
    exact hvalid.2
  simp only [tokens, pairs, List.map_append, List.map_cons, List.map_nil, apply_ite (List.map _),
    List.foldl_append, List.foldl_cons, List.foldl_nil]
  rw [readToken_readBack _ (by decide) hview, readToken_readBack _ (by decide) hpart,
    readToken_readBack _ (by decide) hwidth, readToken_readBack _ (by decide) hheight,
    readToken_readBack _ (by decide) hx, readToken_readBack _ (by decide) hy,
    readToken_readBack _ (by decide) htileWidth, readToken_readBack _ (by decide) htileHeight,
    setArg_nviewid, setArg_part, setArg_width, setArg_height, setArg_tileposx, setArg_tileposy,
    setArg_tilewidth, setArg_tileheight]
  dsimp only
  have hold : min t.oldWireId (2 ^ 31 - 1) = t.oldWireId :=
    Nat.min_eq_left (Nat.le_pred_of_lt h.oldWireId)
  have hwid : min t.wireId (2 ^ 31 - 1) = t.wireId :=
    Nat.min_eq_left (Nat.le_pred_of_lt h.wireId)
  have hreadOld (t' : TileDesc) := readToken_oldwid t' t.oldWireId
  have hreadWid (t' : TileDesc) := readToken_wid t' t.wireId
  rw [hold] at hreadOld
  rw [hwid] at hreadWid
  rw [foldl_optional (hreadOld _), foldl_optional (hreadWid _),
    readToken_readBack _ (by decide) hver, setArg_ver]
  dsimp only
  rw [foldl_optional ((readToken_readBack _ (by decide) hnum).trans (setArg_tileId _ _)),
    foldl_optional ((readToken_readBack _ (by decide) himg).trans (setArg_imgsize _ _)),
    foldl_optional ((readToken_readBack _ (by decide) hmode).trans (setArg_mode _ _))]
  -- what is left are the fields that are not printed
  all_goals
    intro hskip
    dsimp only
  · have hzero : t.mode = parseDefaults.mode := not_not.mp hskip
    simp only [hzero]
  · have hzero : t.imgSize = parseDefaults.imgSize := by
      change t.imgSize = 0
      omega
    simp only [hzero]
  · have hnone : t.id = parseDefaults.id := by
      change t.id = -1
      omega
    simp only [hnone]
  · have hzero : t.wireId = parseDefaults.wireId := not_not.mp hskip
    simp only [hzero]
  · have hzero : t.oldWireId = parseDefaults.oldWireId := not_not.mp hskip
    simp only [hzero]

/-! ## Only such numbers are read -/

theorem readBack_parseDefaults : parseDefaults.ReadBack := by
  constructor <;> decide

theorem ReadBack.setArg (h : t.ReadBack) (arg : Payload) {value : Int}
    (hvalue : -2 ^ 31 < value ∧ value < 2 ^ 31 - 1) : (t.setArg arg value).ReadBack := by
  have hite {p : Prop} [Decidable p] {a b : TileDesc} (ha : a.ReadBack) (hb : b.ReadBack) :
      (if p then a else b).ReadBack := by
    split
    · exact ha
    · exact hb
  have hints := h.ints
  simp only [intFields, List.forall_mem_cons] at hints
  rcases hints with
    ⟨hview, hpart, hmode, hwidth, hheight, hx, hy, htileWidth, htileHeight, hver, himg, hnum, -⟩
  simp only [TileDesc.setArg]
  repeat' apply hite
  all_goals refine ⟨?_, h.oldWireId, h.wireId⟩
  all_goals
    simp only [intFields, List.forall_mem_cons]
    refine ⟨?_, ?_, ?_, ?_, ?_, ?_, ?_, ?_, ?_, ?_, ?_, ?_, List.forall_mem_nil _⟩ <;> assumption

/-- The values of the names that are read as a number without a sign have none. -/
theorem of_mem_pairs_cases {name value : Payload} (h : (name, value) ∈ t.pairs) :
    (name ∈ intNames ∧ ∃ n, value = Text.decimal n) ∨
      (name = Word.oldwid ∨ name = Word.wid) ∧ ∃ n : Nat, value = Text.decimal n := by
  simp only [pairs, List.mem_append, List.mem_cons, List.mem_ite_nil_right, Prod.mk.injEq,
    List.not_mem_nil, or_false] at h
  simp only [intNames, List.mem_cons, List.not_mem_nil, or_false]
  grind

theorem ReadBack.readToken {t' : TileDesc} (h : t'.ReadBack) {name value : Payload}
    (hmem : (name, value) ∈ t.pairs) : (t'.readToken (name ++ '=' :: value)).ReadBack := by
  have hclamped (n : Nat) : min n (2 ^ 31 - 1) < 2 ^ 31 := by
    omega
  rcases of_mem_pairs_cases hmem with ⟨hname, n, rfl⟩ | ⟨rfl | rfl, n, rfl⟩
  · rw [readToken_int t' hname]
    split
    case isTrue hn => exact h.setArg name (by omega)
    case isFalse => exact h
  · rw [readToken_oldwid]
    exact ⟨h.ints, hclamped n, h.wireId⟩
  · rw [readToken_wid]
    exact ⟨h.ints, h.oldWireId, hclamped n⟩

theorem readBack_foldl_tokens (t : TileDesc) :
    (t.tokens.foldl TileDesc.readToken parseDefaults).ReadBack := by
  rw [tokens, List.foldl_map]
  apply List.foldlRecOn t.pairs _ readBack_parseDefaults
  intro t' h pair hmem
  exact h.readToken hmem

/-! ## The round trip of a tile -/

/-- No line ends in it, and it is not taken for an empty message. -/
def IsStart (start : Payload) : Prop := '\n' ∉ start ∧ start.head? ≠ some '\x00'

theorem foldl_readToken_fields {start : Payload} (hequals : '=' ∉ start) (t : TileDesc) :
    (Text.fields ' ' start).foldl readToken t = t := by
  apply foldl_readToken_words
  intro word hword hmem
  exact hequals (Text.mem_of_mem_fields hword hmem)

theorem parse_serialize_of_isStart {start : Payload} (hequals : '=' ∉ start)
    (hstart : IsStart start) :
    parse (t.serialize start []) = (t.tokens.foldl readToken parseDefaults).new := by
  rw [parse, serialize_eq, List.append_nil, Text.intercalate_cons,
    tokenize_append_flatMap hstart.1 hstart.2 (fun token => isToken_of_mem_tokens),
    List.foldl_append, foldl_readToken_fields hequals]

/-- A line that ends before the fields is read without them. -/
theorem tokenize_of_not_isStart {start : Payload} (hequals : '=' ∉ start)
    (hstart : ¬IsStart start) (rest : Payload) :
    ∃ text, '=' ∉ text ∧ tokenize (start ++ rest) ' ' = Text.fields ' ' text := by
  rw [tokenize]
  split
  case isTrue => exact ⟨[], List.not_mem_nil, Text.fields_nil.symm⟩
  case isFalse hnul =>
    have hhead : start.head? ≠ some '\x00' := by
      intro hhead
      rw [List.head?_append, hhead] at hnul
      exact hnul rfl
    have hline : '\n' ∈ start := by
      by_contra hline
      exact hstart ⟨hline, hhead⟩
    rcases List.eq_append_cons_of_mem hline with ⟨before, after, rfl, hbefore⟩
    have hall : ∀ c ∈ before, (c != '\n') = true := by
      intro c hc
      rw [bne_iff_ne]
      rintro rfl
      exact hbefore hc
    have htake : (before ++ '\n' :: after ++ rest).takeWhile (· != '\n') = before := by
      rw [List.append_assoc, List.takeWhile_append_of_pos hall, List.cons_append]
      simp
    rw [htake]
    exact ⟨before, fun hmem => hequals (List.mem_append_left _ hmem), rfl⟩

theorem parse_serialize_of_not_isStart {start : Payload} (hequals : '=' ∉ start)
    (hstart : ¬IsStart start) : parse (t.serialize start []) = none := by
  rcases tokenize_of_not_isStart hequals hstart (t.serialize [] []) with ⟨text, htext, htokens⟩
  rw [parse, serialize_start, htokens, foldl_readToken_fields htext]
  decide

/-- A tile is read back from its message exactly when its numbers and the start of the message
are read to their end. -/
theorem parse_serialize_iff {start : Payload} (ht : t.Typed) (hid : -1 ≤ t.id)
    (hequals : '=' ∉ start) :
    parse (t.serialize start []) = some t ↔ t.ReadBack ∧ IsStart start := by
  constructor
  · intro hparse
    by_cases hstart : IsStart start
    · rw [parse_serialize_of_isStart hequals hstart, new] at hparse
      split at hparse
      case isTrue =>
        have heq : t.tokens.foldl readToken parseDefaults = t := Option.some.inj hparse
        have h := readBack_foldl_tokens t
        rw [heq] at h
        exact ⟨h, hstart⟩
      case isFalse => cases hparse
    · rw [parse_serialize_of_not_isStart hequals hstart] at hparse
      cases hparse
  · rintro ⟨h, hstart⟩
    rw [parse_serialize_of_isStart hequals hstart, foldl_readToken_tokens h ht.valid hid, new,
      if_pos ht.valid]

theorem parse_serialize_tile :
    parse ((⟨0, 0, 0, 256, 256, 0, 3840, 3840, 3840, 7, 0, -1, 0, 12⟩ : TileDesc).serialize
      ['t', 'i', 'l', 'e'] []) =
        some ⟨0, 0, 0, 256, 256, 0, 3840, 3840, 3840, 7, 0, -1, 0, 12⟩ := by
  apply (parse_serialize_iff ⟨by decide, by decide, by decide, by decide⟩ (by decide)
    (by decide)).mpr
  exact ⟨⟨by decide, by decide, by decide⟩, by decide, by decide⟩

/-- A wire id above that of an `int` is not read back. -/
theorem wireId_not_read_back :
    ∃ t : TileDesc, t.Typed ∧ -1 ≤ t.id ∧
      parse (t.serialize ['t', 'i', 'l', 'e'] []) ≠ some t := by
  refine ⟨⟨0, 0, 0, 256, 256, 0, 3840, 3840, 3840, 7, 0, -1, 0, 2 ^ 31⟩, ?_, by decide, ?_⟩
  · constructor <;> decide
  · decide +kernel

end TileDesc

/-! ## The round trip of a combined tile -/

namespace TileCombined

/-- Where no tile has an id, none is left out of the message. -/
theorem sent_bare {c : TileCombined} {t : TileDesc} (hsize : c.hasImgSizes = false)
    (hold : t.oldWireId ≠ 0 → c.hasOldWids = true) (hwid : t.wireId ≠ 0 → c.hasWids = true) :
    c.sent (bare t) = bare t := by
  have hold' : (if c.hasOldWids then t.oldWireId else 0) = t.oldWireId := by
    split
    case isTrue => rfl
    case isFalse hnone => exact (not_not.mp (mt hold hnone)).symm
  have hwid' : (if c.hasWids then t.wireId else 0) = t.wireId := by
    split
    case isTrue => rfl
    case isFalse hnone => exact (not_not.mp (mt hwid hnone)).symm
  simp only [sent, bare, hsize, hold', hwid']
  rfl

/-- Tiles are read back from their combined message, less what a combined tile does not have. -/
theorem parse_create {tiles : List TileDesc} (hne : tiles ≠ []) (htyped : ∀ t ∈ tiles, t.Typed)
    (hsame : ∀ t ∈ tiles, ∀ t' ∈ tiles, t.sameTileCombineParams t' = true) {start : Payload}
    (hstart : IsToken start) (hequals : '=' ∉ start) (hnul : start.head? ≠ some '\x00') :
    ∃ c, create tiles = some c ∧ parse (c.serialize start []) = some c ∧
      c.tiles = tiles.map bare := by
  cases tiles with
  | nil => exact absurd rfl hne
  | cons first rest =>
      have hfirst := (htyped first List.mem_cons_self).ints
      simp only [TileDesc.intFields, List.forall_mem_cons] at hfirst
      rcases hfirst with ⟨hview, hpart, hmode, hwidth, hheight, -, -, htileWidth, htileHeight, -⟩
      have hcreate := create_eq fun t ht =>
        ⟨(htyped t ht).wellFormed, hsame first List.mem_cons_self t ht⟩
      obtain ⟨c, hsome⟩ : ∃ c, create (first :: rest) = some c := ⟨_, hcreate⟩
      have hc := Option.some.inj (hsome.symm.trans hcreate)
      have hmembers : c.tiles = (first :: rest).map bare := by
        rw [hc]
      have hsizes : c.hasImgSizes = false := by
        rw [hc, List.any_eq_false]
        intro t ht
        rcases List.mem_map.mp ht with ⟨t', -, rfl⟩
        simp [bare]
      have hsent : ∀ t ∈ c.tiles, c.sent t = t := by
        intro t ht
        rw [hmembers] at ht
        rcases List.mem_map.mp ht with ⟨t', ht', rfl⟩
        apply sent_bare hsizes
        · intro hold
          rw [hc, List.any_eq_true]
          exact ⟨bare t', ht, bne_iff_ne.mpr hold⟩
        · intro hwid
          rw [hc, List.any_eq_true]
          exact ⟨bare t', ht, bne_iff_ne.mpr hwid⟩
      have hmap : c.tiles.map c.sent = c.tiles := by
        rw [List.map_congr_left hsent, List.map_id']
      have hparams : c.ParamsInt32 := by
        rw [hc]
        exact ⟨hview, hpart, hmode, hwidth, hheight, htileWidth, htileHeight⟩
      have hdescribes : ∀ t ∈ c.tiles, c.Describes (c.sent t) := by
        intro t ht
        rw [hsent t ht]
        rw [hmembers] at ht
        rcases List.mem_map.mp ht with ⟨t', ht', rfl⟩
        have h := describes_bare (htyped t' ht').wellFormed (hsame first List.mem_cons_self t' ht')
        rw [hc]
        exact ⟨h.wellFormed, h.same⟩
      have hparse := parse_serialize hstart hequals hnul (by simp [hmembers]) hparams hdescribes
      refine ⟨c, hsome, ?_, hmembers⟩
      rw [hparse, hmap]
      subst hc
      rfl

/-! ## Fields of different lengths -/

/-- `TileCombined::parse`, of the tokens of a message. -/
def parseTokens (tokens : List Payload) : Option TileCombined :=
  let args := tokens.foldl Args.readToken Args.start
  args.params.new args.lists

/-- The value of the last field of a name. -/
def lastValue (name : Payload) (tokens : List Payload) : Payload :=
  ((tokens.filterMap parseNameValuePair).reverse.lookup name).getD []

theorem lastValue_append (name : Payload) (tokens : List Payload) (token : Payload) :
    lastValue name (tokens ++ [token]) =
      match parseNameValuePair token with
      | some (name', value) => if name' = name then value else lastValue name tokens
      | none => lastValue name tokens := by
  rw [lastValue, List.filterMap_append, List.reverse_append]
  cases h : parseNameValuePair token with
  | none => simp [lastValue, h]
  | some pair =>
      rcases pair with ⟨name', value⟩
      simp only [List.filterMap_cons, h, List.filterMap_nil, List.reverse_singleton,
        List.singleton_append, List.lookup_cons]
      by_cases heq : name' = name
      · simp [heq]
      · simp [heq, beq_eq_false_iff_ne.mpr (Ne.symm heq), lastValue]

/-- The strings of the last fields. -/
def lastLists (tokens : List Payload) : TileLists where
  tilePositionsX := lastValue Word.tileposx tokens
  tilePositionsY := lastValue Word.tileposy tokens
  vers := lastValue Word.ver tokens
  imgSizes := lastValue Word.imgsize tokens
  oldWireIds := lastValue Word.oldwid tokens
  wireIds := lastValue Word.wid tokens

theorem Args.setParam_lists (a : Args) (name : Payload) (value : Int) :
    (a.setParam name value).lists = a.lists := by
  have hite {p : Prop} [Decidable p] {b b' : Args} (hb : b.lists = a.lists)
      (hb' : b'.lists = a.lists) : (if p then b else b').lists = a.lists := by
    split
    · exact hb
    · exact hb'
  rw [Args.setParam]
  repeat' apply hite
  all_goals rfl

theorem Args.set_lists (a : Args) (name value : Payload) :
    (a.set name value).lists =
      { tilePositionsX := if name = Word.tileposx then value else a.lists.tilePositionsX
        tilePositionsY := if name = Word.tileposy then value else a.lists.tilePositionsY
        vers := if name = Word.ver then value else a.lists.vers
        imgSizes := if name = Word.imgsize then value else a.lists.imgSizes
        oldWireIds := if name = Word.oldwid then value else a.lists.oldWireIds
        wireIds := if name = Word.wid then value else a.lists.wireIds } := by
  by_cases hlist : name ∈ [Word.tileposx, Word.tileposy, Word.imgsize, Word.ver, Word.oldwid,
      Word.wid]
  · simp only [List.mem_cons, List.not_mem_nil, or_false] at hlist
    rcases hlist with rfl | rfl | rfl | rfl | rfl | rfl <;> rfl
  · simp only [List.mem_cons, List.not_mem_nil, or_false, not_or] at hlist
    simp only [Args.set, hlist, if_false]
    split
    · exact a.setParam_lists name _
    · rfl

theorem foldl_readToken_lists (tokens : List Payload) :
    (tokens.foldl Args.readToken Args.start).lists = lastLists tokens := by
  induction tokens using List.reverseRecOn with
  | nil => rfl
  | append_singleton tokens token ih =>
      rw [List.foldl_concat, Args.readToken, lastLists]
      simp only [lastValue_append]
      cases parseNameValuePair token with
      | none => exact ih
      | some pair =>
          dsimp only
          rw [Args.set_lists, ih]
          rfl

/-- The fields have the same number of items; one that may be left out may be empty. -/
def SameLengths (lists : TileLists) : Prop :=
  (tokenize lists.tilePositionsY ',').length = (tokenize lists.tilePositionsX ',').length ∧
    ∀ values ∈ [lists.imgSizes, lists.vers, lists.oldWireIds, lists.wireIds],
      values = [] ∨ (tokenize values ',').length = (tokenize lists.tilePositionsX ',').length

theorem hasCount_iff {n : Nat} {values : Payload} :
    hasCount n values = true ↔ values = [] ∨ (tokenize values ',').length = n := by
  rw [hasCount, Bool.or_eq_true, List.isEmpty_iff, beq_iff_eq]

/-- What is made of strings: the lengths agree, and each tile is that of its place. -/
theorem new_cases {c c' : TileCombined} {lists : TileLists} (h : c.new lists = some c') :
    SameLengths lists ∧
      (List.range (tokenize lists.tilePositionsX ',').length).mapM (c.tileAt lists) =
        some c'.tiles := by
  simp only [new] at h
  split at h
  case isTrue =>
    split at h
    case isTrue hcount =>
      rcases hcount with ⟨hy, himg, hver, hold, hwid⟩
      rcases Option.map_eq_some_iff.mp h with ⟨tiles, htiles, rfl⟩
      refine ⟨⟨hy, ?_⟩, htiles⟩
      simp only [List.forall_mem_cons]
      exact ⟨hasCount_iff.mp himg, hasCount_iff.mp hver, hasCount_iff.mp hold, hasCount_iff.mp hwid,
        List.forall_mem_nil _⟩
    case isFalse => cases h
  case isFalse => cases h

/-- Fields of different lengths are refused. -/
theorem parseTokens_eq_none {tokens : List Payload} (h : ¬SameLengths (lastLists tokens)) :
    parseTokens tokens = none := by
  cases hparse : parseTokens tokens with
  | none => rfl
  | some c =>
      rw [parseTokens, foldl_readToken_lists] at hparse
      exact absurd (new_cases hparse).1 h

/-- The values of a tile are the items at its place. -/
structure Paired (lists : TileLists) (i : Nat) (t : TileDesc) : Prop where
  tilePosX : i32FromString ((tokenize lists.tilePositionsX ',').getD i []) = some t.tilePosX
  tilePosY : i32FromString ((tokenize lists.tilePositionsY ',').getD i []) = some t.tilePosY
  imgSize : lists.imgSizes = [] ∧ t.imgSize = 0 ∨
    i32FromString ((tokenize lists.imgSizes ',').getD i []) = some t.imgSize
  ver : lists.vers = [] ∧ t.ver = -1 ∨
    i32FromString ((tokenize lists.vers ',').getD i []) = some t.ver
  oldWireId : lists.oldWireIds = [] ∧ t.oldWireId = 0 ∨
    stringToUInt32 ((tokenize lists.oldWireIds ',').getD i []) = some t.oldWireId
  wireId : lists.wireIds = [] ∧ t.wireId = 0 ∨
    stringToUInt32 ((tokenize lists.wireIds ',').getD i []) = some t.wireId

theorem tokenValue_paired {α : Type} {read : Payload → Option α} {default a : α}
    {values : Payload} {n i : Nat} (hi : i < n)
    (hcount : values = [] ∨ (tokenize values ',').length = n)
    (h : tokenValue read default (tokenize values ',') i = some a) :
    values = [] ∧ a = default ∨ read ((tokenize values ',').getD i []) = some a := by
  rw [tokenValue] at h
  rcases hcount with rfl | hcount
  · have hnil : tokenize [] ',' = [] := by decide
    rw [hnil, if_pos rfl] at h
    exact Or.inl ⟨rfl, (Option.some.inj h).symm⟩
  · have hne : tokenize values ',' ≠ [] := by
      rw [← List.length_pos_iff]
      omega
    rw [if_neg hne] at h
    exact Or.inr h

theorem paired_of_tileAt {c : TileCombined} {lists : TileLists} (hlengths : SameLengths lists)
    {i : Nat} (hi : i < (tokenize lists.tilePositionsX ',').length) {t : TileDesc}
    (h : c.tileAt lists i = some t) : Paired lists i t := by
  simp only [SameLengths, List.forall_mem_cons] at hlengths
  rcases hlengths with ⟨-, himgs, hvers, holds, hwids, -⟩
  simp only [tileAt, Option.bind_eq_some_iff] at h
  rcases h with ⟨x, hx, y, hy, imgSize, himg, ver, hver, oldWireId, hold, wireId, hwid, h⟩
  rw [TileDesc.new] at h
  split at h
  case isTrue =>
    cases h
    exact ⟨hx, hy, tokenValue_paired hi himgs himg, tokenValue_paired hi hvers hver,
      tokenValue_paired hi holds hold, tokenValue_paired hi hwids hwid⟩
  case isFalse => cases h

theorem getElem?_of_mapM {α β : Type} {f : α → Option β} {l : List α} {l' : List β}
    (h : l.mapM f = some l') (i : Nat) : l'[i]? = l[i]?.bind f := by
  induction l generalizing l' i with
  | nil =>
      cases h
      rfl
  | cons a l ih =>
      simp only [List.mapM_cons, Option.pure_def, Option.bind_eq_bind, Option.bind_eq_some_iff,
        Option.some.injEq] at h
      rcases h with ⟨b, hb, rest, hrest, rfl⟩
      cases i with
      | zero => simpa using hb.symm
      | succ i => simpa using ih hrest i

theorem length_of_mapM {α β : Type} {f : α → Option β} {l : List α} {l' : List β}
    (h : l.mapM f = some l') : l'.length = l.length := by
  induction l generalizing l' with
  | nil =>
      cases h
      rfl
  | cons a l ih =>
      simp only [List.mapM_cons, Option.pure_def, Option.bind_eq_bind, Option.bind_eq_some_iff,
        Option.some.injEq] at h
      rcases h with ⟨b, -, rest, hrest, rfl⟩
      rw [List.length_cons, List.length_cons, ih hrest]

theorem length_of_parseTokens {tokens : List Payload} {c : TileCombined}
    (h : parseTokens tokens = some c) :
    c.tiles.length = (tokenize (lastLists tokens).tilePositionsX ',').length := by
  rw [parseTokens, foldl_readToken_lists] at h
  rw [length_of_mapM (new_cases h).2, List.length_range]

/-- The tiles that are read are those of the items, in their order. -/
theorem paired_of_parseTokens {tokens : List Payload} {c : TileCombined}
    (h : parseTokens tokens = some c) {i : Nat} {t : TileDesc} (ht : c.tiles[i]? = some t) :
    Paired (lastLists tokens) i t := by
  rw [parseTokens, foldl_readToken_lists] at h
  rcases new_cases h with ⟨hlengths, htiles⟩
  rw [getElem?_of_mapM htiles, Option.bind_eq_some_iff] at ht
  rcases ht with ⟨j, hj, ht⟩
  rcases List.getElem?_eq_some_iff.mp hj with ⟨hi, hvalue⟩
  rw [List.getElem_range] at hvalue
  rw [List.length_range] at hi
  rw [← hvalue] at ht
  exact paired_of_tileAt hlengths hi ht

/-- The word before the fields. -/
def tilecombine : Payload := ['t', 'i', 'l', 'e', 'c', 'o', 'm', 'b', 'i', 'n', 'e']

/-- Tiles are read back from their combined message, fields of different lengths are refused, and
what is accepted has for each tile the items at its place. -/
theorem combined_round_trip :
    (∀ tiles : List TileDesc, tiles ≠ [] → (∀ t ∈ tiles, t.Typed) →
      (∀ t ∈ tiles, ∀ t' ∈ tiles, t.sameTileCombineParams t' = true) →
        ∃ c, create tiles = some c ∧ parse (c.serialize tilecombine []) = some c ∧
          c.tiles = tiles.map bare) ∧
    (∀ tokens, ¬SameLengths (lastLists tokens) → parseTokens tokens = none) ∧
    ∀ tokens c, parseTokens tokens = some c →
      c.tiles.length = (tokenize (lastLists tokens).tilePositionsX ',').length ∧
        ∀ i t, c.tiles[i]? = some t → Paired (lastLists tokens) i t := by
  refine ⟨?_, ?_, ?_⟩
  · intro tiles hne htyped hsame
    exact parse_create hne htyped hsame (by decide) (by decide) (by decide)
  · intro tokens h
    exact parseTokens_eq_none h
  · intro tokens c h
    exact ⟨length_of_parseTokens h, fun i t ht => paired_of_parseTokens h ht⟩

theorem combined_round_trip_tiles :
    (∃ c, create [⟨0, 0, 0, 256, 256, 0, 0, 3840, 3840, 7, 0, -1, 0, 3000000000⟩,
        ⟨0, 0, 0, 256, 256, 3840, 0, 3840, 3840, -8, 0, -1, 5, 0⟩] = some c ∧
      parse (c.serialize tilecombine []) = some c ∧
      c.tiles = [⟨0, 0, 0, 256, 256, 0, 0, 3840, 3840, 7, 0, -1, 0, 3000000000⟩,
        ⟨0, 0, 0, 256, 256, 3840, 0, 3840, 3840, -8, 0, -1, 5, 0⟩]) ∧
    parseTokens ["part=0".toList, "width=256".toList, "height=256".toList, "tilewidth=3840".toList,
      "tileheight=3840".toList, "tileposx=0,3840".toList, "tileposy=0,0".toList,
      "ver=1".toList] = none := by
  constructor
  · apply combined_round_trip.1 <;> decide +kernel
  · apply combined_round_trip.2.1
    rintro ⟨-, h⟩
    exact absurd h (by decide +kernel)

/-- A field without items is as if it were not there, and an item without a value does not count:
both are accepted, and here the third item is paired with the second. -/
theorem different_lengths_accepted :
    let start := ["part=0".toList, "width=256".toList, "height=256".toList,
      "tilewidth=3840".toList, "tileheight=3840".toList]
    let length (name : Payload) (tokens : List Payload) :=
      ((lastValue name tokens).splitOn ',').length
    (∃ tokens c, tokens = start ++ ["tileposx=0,3840".toList, "tileposy=0,0".toList,
        "ver=".toList] ∧
      parseTokens tokens = some c ∧ length Word.ver tokens ≠ length Word.tileposx tokens) ∧
    ∃ tokens c, tokens = start ++ ["tileposx=0,,7680".toList, "tileposy=0,3840".toList] ∧
      parseTokens tokens = some c ∧ length Word.tileposy tokens ≠ length Word.tileposx tokens ∧
      c.tiles.map (fun t => (t.tilePosX, t.tilePosY)) = [(0, 0), (7680, 3840)] := by
  intro start length
  constructor
  · rcases Option.isSome_iff_exists.mp (by decide +kernel : (parseTokens (start ++
      ["tileposx=0,3840".toList, "tileposy=0,0".toList, "ver=".toList])).isSome = true) with ⟨c, hc⟩
    exact ⟨_, c, rfl, hc, by decide +kernel⟩
  · rcases exists_of_any (by decide +kernel : (parseTokens (start ++
      ["tileposx=0,,7680".toList, "tileposy=0,3840".toList])).any (fun c =>
        c.tiles.map (fun t => (t.tilePosX, t.tilePosY)) = [(0, 0), (7680, 3840)]) = true)
      with ⟨c, hc, htiles⟩
    exact ⟨_, c, rfl, hc, by decide +kernel, htiles⟩

end TileCombined

end CoolOnline
