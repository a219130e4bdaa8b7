import CoolOnline.Common.Protocol
import Mathlib.Tactic.Simps.Basic

/-! # Tile descriptions

`TileDesc`, `TileCombined` and `TileCombinedBuilder` of `wsd/TileDesc.hpp`: one tile, the tiles of
a combined request or response, and the messages that describe them.
-/

namespace CoolOnline

open StringVector

namespace Word

def height : Payload := ['h', 'e', 'i', 'g', 'h', 't']
def imgsize : Payload := ['i', 'm', 'g', 's', 'i', 'z', 'e']
def mode : Payload := ['m', 'o', 'd', 'e']
def nviewid : Payload := ['n', 'v', 'i', 'e', 'w', 'i', 'd']
def oldwid : Payload := ['o', 'l', 'd', 'w', 'i', 'd']
def part : Payload := ['p', 'a', 'r', 't']
def tileheight : Payload := ['t', 'i', 'l', 'e', 'h', 'e', 'i', 'g', 'h', 't']
def tileposx : Payload := ['t', 'i', 'l', 'e', 'p', 'o', 's', 'x']
def tileposy : Payload := ['t', 'i', 'l', 'e', 'p', 'o', 's', 'y']
def tilewidth : Payload := ['t', 'i', 'l', 'e', 'w', 'i', 'd', 't', 'h']
def tileId : Payload := ['i', 'd']
def ver : Payload := ['v', 'e', 'r']
def wid : Payload := ['w', 'i', 'd']
def width : Payload := ['w', 'i', 'd', 't', 'h']

end Word

structure TileDesc where
  canonicalViewId : Int
  part : Int
  mode : Int
  width : Int
  height : Int
  tilePosX : Int
  tilePosY : Int
  tileWidth : Int
  tileHeight : Int
  ver : Int
  imgSize : Int
  id : Int
  oldWireId : Nat
  wireId : Nat
deriving DecidableEq, Repr

namespace TileDesc

/-- What the constructor accepts. -/
def isValid (t : TileDesc) : Bool :=
  -1 < t.canonicalViewId && 0 ≤ t.part && 0 ≤ t.mode && 0 < t.width && 0 < t.height &&
    0 ≤ t.tilePosX && 0 ≤ t.tilePosY && 0 < t.tileWidth && 0 < t.tileHeight && 0 ≤ t.imgSize

/-- The constructor; it throws if the description is not valid. -/
def new (t : TileDesc) : Option TileDesc := if t.isValid then some t else none

variable (t other : TileDesc)

def isPreview : Bool := 0 ≤ t.id

def isForcedKeyFrame : Bool := t.oldWireId == 0

/-- The fields that `compareAsAtTilePos` compares, in its order. -/
def keyAt (tilePosX tilePosY : Int) : List Int :=
  [t.canonicalViewId, t.id, t.mode, t.part, t.height, t.width, t.tileHeight, t.tileWidth,
    tilePosY, tilePosX]

/-- The key of `operator<`; `operator==` compares the same fields. -/
def key : List Int := t.keyAt t.tilePosX t.tilePosY

def sameTileCombineParams : Bool :=
  other.part == t.part && other.mode == t.mode && other.width == t.width &&
    other.height == t.height && other.tileWidth == t.tileWidth &&
    other.tileHeight == t.tileHeight && other.canonicalViewId == t.canonicalViewId

/-- The fields are of their types, and what the constructor accepts. -/
structure WellFormed : Prop where
  valid : t.isValid = true
  tilePosX : IsInt32 t.tilePosX
  tilePosY : IsInt32 t.tilePosY
  ver : IsInt32 t.ver
  imgSize : IsInt32 t.imgSize
  oldWireId : t.oldWireId < 2 ^ 32
  wireId : t.wireId < 2 ^ 32

end TileDesc

/-! ## Reading a tile -/

/-- `Util::safe_atoi`: the number stops growing at `INT_MAX`. -/
def safeAtoi (text : Payload) : Int :=
  max (-(2 ^ 31 - 1)) (min ((Text.leadingInt text).getD 0) (2 ^ 31 - 1))

def toUInt32 (n : Int) : Nat := (n % 2 ^ 32).toNat

/-- `StringVector::getUInt32`, the value it stores. -/
def getUInt32 (token key : Payload) : Option Nat :=
  if token.length > key.length + 1 ∧ (key ++ ['=']).isPrefixOf token = true then
    some (toUInt32 (safeAtoi (token.drop (key.length + 1))))
  else none

/-- `StringVector::getNameIntegerPair`. -/
def getNameIntegerPair (token : Payload) : Option (Payload × Int) :=
  if token.contains '=' then
    let value := safeAtoi (token.dropWhile (· != '=')).tail
    if -2 ^ 31 < value ∧ value < 2 ^ 31 - 1 then some (token.takeWhile (· != '='), value) else none
  else none

namespace TileDesc

/-- The defaults of `TileDescParseResults` and of the wire ids. -/
def parseDefaults : TileDesc := ⟨0, 0, 0, 0, 0, 0, 0, 0, 0, -1, 0, -1, 0, 0⟩

def setArg (t : TileDesc) (arg : Payload) (value : Int) : TileDesc :=
  if arg = Word.height then { t with height := value }
  else if arg = Word.tileId then { t with id := value }
  else if arg = Word.imgsize then { t with imgSize := value }
  else if arg = Word.mode then { t with mode := value }
  else if arg = Word.nviewid then { t with canonicalViewId := value }
  else if arg = Word.part then { t with part := value }
  else if arg = Word.tileheight then { t with tileHeight := value }
  else if arg = Word.tileposx then { t with tilePosX := value }
  else if arg = Word.tileposy then { t with tilePosY := value }
  else if arg = Word.tilewidth then { t with tileWidth := value }
  else if arg = Word.ver then { t with ver := value }
  else if arg = Word.width then { t with width := value }
  else t

def readToken (t : TileDesc) (token : Payload) : TileDesc :=
  match getUInt32 token Word.oldwid, getUInt32 token Word.wid, getNameIntegerPair token with
  | some oldWireId, _, _ => { t with oldWireId := oldWireId }
  | none, some wireId, _ => { t with wireId := wireId }
  | none, none, some (name, value) => t.setArg name value
  | none, none, none => t

def parse (message : Payload) : Option TileDesc :=
  ((tokenize message ' ').foldl readToken parseDefaults).new

end TileDesc

/-! ## Combined tiles -/

structure TileCombined where
  canonicalViewId : Int
  part : Int
  mode : Int
  width : Int
  height : Int
  tileWidth : Int
  tileHeight : Int
  tiles : List TileDesc
  hasWids : Bool
  hasOldWids : Bool
  isCombined : Bool
  hasImgSizes : Bool
deriving DecidableEq, Repr

/-- `COOLProtocol::stringToUInt32`, which reads an `int`. -/
def stringToUInt32 (text : Payload) : Option Nat := (i32FromString text).map toUInt32

/-- The strings of positions, versions, sizes and wire ids that a combined tile is made of. -/
structure TileLists where
  tilePositionsX : Payload
  tilePositionsY : Payload
  vers : Payload
  imgSizes : Payload
  oldWireIds : Payload
  wireIds : Payload

/-- The value of the `i`-th token, or the default where there are no tokens. -/
def tokenValue {α : Type} (read : Payload → Option α) (default : α) (tokens : List Payload)
    (i : Nat) : Option α :=
  if tokens = [] then some default else read (tokens.getD i [])

namespace TileCombined

/-- The description of the `i`-th tile; a number that cannot be read throws. -/
def tileAt (c : TileCombined) (lists : TileLists) (i : Nat) : Option TileDesc :=
  (i32FromString ((tokenize lists.tilePositionsX ',').getD i [])).bind fun x =>
  (i32FromString ((tokenize lists.tilePositionsY ',').getD i [])).bind fun y =>
  (tokenValue i32FromString 0 (tokenize lists.imgSizes ',') i).bind fun imgSize =>
  (tokenValue i32FromString (-1) (tokenize lists.vers ',') i).bind fun ver =>
  (tokenValue stringToUInt32 0 (tokenize lists.oldWireIds ',') i).bind fun oldWireId =>
  (tokenValue stringToUInt32 0 (tokenize lists.wireIds ',') i).bind fun wireId =>
    TileDesc.new ⟨c.canonicalViewId, c.part, c.mode, c.width, c.height, x, y, c.tileWidth,
      c.tileHeight, ver, imgSize, -1, oldWireId, wireId⟩

/-- A string of values has as many as there are positions, if it is there. -/
def hasCount (n : Nat) (values : Payload) : Bool :=
  values.isEmpty || (tokenize values ',').length == n

/-- The constructor from strings, for the parameters of `c`; it throws where the strings do not
match. -/
def new (c : TileCombined) (lists : TileLists) : Option TileCombined :=
  if 0 ≤ c.part ∧ 0 ≤ c.mode ∧ 0 < c.width ∧ 0 < c.height ∧ 0 < c.tileWidth ∧
      0 < c.tileHeight then
    let n := (tokenize lists.tilePositionsX ',').length
    if (tokenize lists.tilePositionsY ',').length = n ∧ hasCount n lists.imgSizes = true ∧
        hasCount n lists.vers = true ∧ hasCount n lists.oldWireIds = true ∧
        hasCount n lists.wireIds = true then
      ((List.range n).mapM (c.tileAt lists)).map fun tiles =>
        { c with
          tiles := tiles
          hasWids := tiles.any fun t => t.wireId != 0
          hasOldWids := tiles.any fun t => t.oldWireId != 0
          isCombined := true
          hasImgSizes := tiles.any fun t => t.imgSize != 0 }
    else none
  else none

/-- The parameters of a combined tile, without tiles. -/
def ofParams (canonicalViewId part mode width height tileWidth tileHeight : Int) : TileCombined :=
  ⟨canonicalViewId, part, mode, width, height, tileWidth, tileHeight, [], false, false, true,
    false⟩

/-- Numbers with a comma after each one. -/
def listed (values : List Int) : Payload := values.flatMap fun n => Text.decimal n ++ [',']

/-- `TileCombined::create`. Going back over the last comma of the versions only moves the place
where the stream is written next. -/
def create (tiles : List TileDesc) : Option TileCombined :=
  tiles.head?.bind fun first =>
    (ofParams first.canonicalViewId first.part first.mode first.width first.height
      first.tileWidth first.tileHeight).new
      { tilePositionsX := listed (tiles.map (·.tilePosX))
        tilePositionsY := listed (tiles.map (·.tilePosY))
        vers := listed (tiles.map (·.ver))
        imgSizes := []
        oldWireIds := listed (tiles.map fun t => t.oldWireId)
        wireIds := listed (tiles.map fun t => t.wireId) }

/-- A combined tile of one tile, as it is. -/
def ofTile (desc : TileDesc) : TileCombined :=
  { ofParams desc.canonicalViewId desc.part desc.mode desc.width desc.height desc.tileWidth
      desc.tileHeight with
    tiles := [desc]
    hasWids := desc.wireId != 0
    hasOldWids := desc.oldWireId != 0
    isCombined := false
    hasImgSizes := desc.imgSize != 0 }

/-! ## The message of a combined tile -/

/-- A value as it is printed in a message, for a name. -/
def field (name value : Payload) : Payload := ' ' :: name ++ '=' :: value

/-- Numbers with a comma between each two. -/
def separated (values : List Int) : Payload := [','].intercalate (values.map Text.decimal)

/-- `TileCombined::serialize`. -/
def serialize (c : TileCombined) (start suffix : Payload) : Payload :=
  start ++ field Word.nviewid (Text.decimal c.canonicalViewId) ++
    field Word.part (Text.decimal c.part) ++ field Word.width (Text.decimal c.width) ++
    field Word.height (Text.decimal c.height) ++
    field Word.tileposx (separated (c.tiles.map (·.tilePosX))) ++
    field Word.tileposy (separated (c.tiles.map (·.tilePosY))) ++
    (if c.hasImgSizes then field Word.imgsize (separated (c.tiles.map (·.imgSize))) else []) ++
    field Word.tilewidth (Text.decimal c.tileWidth) ++
    field Word.tileheight (Text.decimal c.tileHeight) ++
    field Word.ver (separated (c.tiles.map (·.ver))) ++
    (if c.hasOldWids then field Word.oldwid (separated (c.tiles.map fun t => t.oldWireId))
      else []) ++
    (if c.hasWids then field Word.wid (separated (c.tiles.map fun t => t.wireId)) else []) ++
    (if c.mode ≠ 0 then field Word.mode (Text.decimal c.mode) else []) ++ suffix

end TileCombined

/-- The message of a single tile. -/
def TileDesc.serialize (t : TileDesc) (start suffix : Payload) : Payload :=
  start ++ TileCombined.field Word.nviewid (Text.decimal t.canonicalViewId) ++
    TileCombined.field Word.part (Text.decimal t.part) ++
    TileCombined.field Word.width (Text.decimal t.width) ++
    TileCombined.field Word.height (Text.decimal t.height) ++
    TileCombined.field Word.tileposx (Text.decimal t.tilePosX) ++
    TileCombined.field Word.tileposy (Text.decimal t.tilePosY) ++
    TileCombined.field Word.tilewidth (Text.decimal t.tileWidth) ++
    TileCombined.field Word.tileheight (Text.decimal t.tileHeight) ++
    (if t.oldWireId ≠ 0 then TileCombined.field Word.oldwid (Text.decimal t.oldWireId) else []) ++
    (if t.wireId ≠ 0 then TileCombined.field Word.wid (Text.decimal t.wireId) else []) ++
    TileCombined.field Word.ver (Text.decimal t.ver) ++
    (if 0 ≤ t.id then TileCombined.field Word.tileId (Text.decimal t.id) else []) ++
    (if 0 < t.imgSize then TileCombined.field Word.imgsize (Text.decimal t.imgSize) else []) ++
    (if t.mode ≠ 0 then TileCombined.field Word.mode (Text.decimal t.mode) else []) ++ suffix

namespace TileCombined

/-- `COOLProtocol::parseNameValuePair`. -/
def parseNameValuePair (token : Payload) : Option (Payload × Payload) :=
  if token.contains '=' then
    some (token.takeWhile (· != '='), (token.dropWhile (· != '=')).tail)
  else none

/-- What has been read of a message: the strings and the parameters. -/
structure Args where
  lists : TileLists
  params : TileCombined

def Args.setParam (a : Args) (arg : Payload) (value : Int) : Args :=
  if arg = Word.height then { a with params := { a.params with height := value } }
  else if arg = Word.mode then { a with params := { a.params with mode := value } }
  else if arg = Word.nviewid then { a with params := { a.params with canonicalViewId := value } }
  else if arg = Word.part then { a with params := { a.params with part := value } }
  else if arg = Word.tileheight then { a with params := { a.params with tileHeight := value } }
  else if arg = Word.tilewidth then { a with params := { a.params with tileWidth := value } }
  else if arg = Word.width then { a with params := { a.params with width := value } }
  else a

def Args.set (a : Args) (name value : Payload) : Args :=
  if name = Word.tileposx then { a with lists := { a.lists with tilePositionsX := value } }
  else if name = Word.tileposy then { a with lists := { a.lists with tilePositionsY := value } }
  else if name = Word.imgsize then { a with lists := { a.lists with imgSizes := value } }
  else if name = Word.ver then { a with lists := { a.lists with vers := value } }
  else if name = Word.oldwid then { a with lists := { a.lists with oldWireIds := value } }
  else if name = Word.wid then { a with lists := { a.lists with wireIds := value } }
  else
    match i32FromString value with
    | some v => a.setParam name v
    | none => a

def Args.readToken (a : Args) (token : Payload) : Args :=
  match parseNameValuePair token with
  | some (name, value) => a.set name value
  | none => a

def Args.start : Args := ⟨⟨[], [], [], [], [], []⟩, ofParams 0 0 0 0 0 0 0⟩

/-- `TileCombined::parse`. -/
def parse (message : Payload) : Option TileCombined :=
  let args := (tokenize message ' ').foldl Args.readToken Args.start
  args.params.new args.lists

/-! ## Building a response -/

/-- The empty `TileCombinedBuilder`. -/
def emptyBuilder : TileCombined :=
  ⟨-1, -1, -1, -1, -1, -1, -1, [], false, false, false, false⟩

/-- `TileCombinedBuilder::pushRendered`. -/
def pushRendered (c : TileCombined) (desc : TileDesc) (wireId imgSize : Nat) : TileCombined :=
  let rendered := { desc with wireId := wireId, imgSize := toInt32 imgSize }
  let c' :=
    if c.part < 0 ∧ c.mode < 0 ∧ c.width ≤ 0 then
      { c with
        canonicalViewId := desc.canonicalViewId
        part := desc.part
        mode := desc.mode
        width := desc.width
        height := desc.height
        tileWidth := desc.tileWidth
        tileHeight := desc.tileHeight
        hasOldWids := desc.oldWireId != 0 }
    else c
  let tiles := c.tiles ++ [rendered]
  { c' with tiles := tiles, hasWids := true, hasImgSizes := true, isCombined := 1 < tiles.length }

end TileCombined

/-! ## Round trips -/

theorem stringToUInt32_decimal {n : Nat} (h : n < 2 ^ 32) :
    stringToUInt32 (Text.decimal n) = some n := by
  have hread := i32FromString_decimal (n := (n : Int)) (by omega) (by omega)
  have hmod : toInt32 n % 2 ^ 32 = n := by
    have hbmod := Int.bmod_emod (x := (n : Int)) (m := 2 ^ 32)
    simp only [toInt32]
    omega
  simp only [stringToUInt32, hread, Option.map_some, toUInt32, hmod, Int.toNat_natCast]

theorem isField_decimal (n : Int) : Text.IsField ',' (Text.decimal n) := by
  refine ⟨Text.decimal_ne_nil n, fun hmem => ?_⟩
  rcases Text.mem_decimal hmem with heq | hdigit
  · exact absurd heq (by decide)
  · exact absurd hdigit (by decide)

namespace TileCombined

theorem tokenize_listed (values : List Int) :
    tokenize (listed values) ',' = values.map Text.decimal := by
  have hlisted : listed values = (values.map Text.decimal).flatMap fun f => f ++ [','] := by
    simp [listed, List.flatMap_map]
  rw [tokenize_numbers (by decide) (by decide), hlisted, Text.fields_flatMap]
  · intro f hf
    obtain ⟨n, -, rfl⟩ := List.mem_map.mp hf
    exact isField_decimal n
  · intro c hc
    obtain ⟨n, -, hc⟩ := List.mem_flatMap.mp hc
    rcases List.mem_append.mp hc with hc | hc
    · exact Or.inr (Text.mem_decimal hc)
    · exact Or.inl (List.mem_singleton.mp hc)

theorem tokenize_separated (values : List Int) :
    tokenize (separated values) ',' = values.map Text.decimal := by
  rw [tokenize_numbers (by decide) (by decide), separated, Text.fields_intercalate]
  · intro f hf
    obtain ⟨n, -, rfl⟩ := List.mem_map.mp hf
    exact isField_decimal n
  · intro c hc
    rcases Text.mem_intercalate hc with heq | ⟨f, hf, hc⟩
    · exact Or.inl heq
    · obtain ⟨n, -, rfl⟩ := List.mem_map.mp hf
      exact Or.inr (Text.mem_decimal hc)

/-- The string lists the numbers. -/
def Column (values : Payload) (numbers : List Int) : Prop :=
  tokenize values ',' = numbers.map Text.decimal

/-- The string lists the numbers, or is missing where all are the default. -/
def ColumnOr (default : Int) (values : Payload) (numbers : List Int) : Prop :=
  Column values numbers ∨ values = [] ∧ ∀ n ∈ numbers, n = default

theorem Column.getD {values : Payload} {numbers : List Int} (h : Column values numbers) {i : Nat}
    (hi : i < numbers.length) : (tokenize values ',').getD i [] = Text.decimal numbers[i] := by
  rw [h]
  simp [hi]

theorem ColumnOr.hasCount {default : Int} {values : Payload} {numbers : List Int}
    (h : ColumnOr default values numbers) : hasCount numbers.length values = true := by
  rcases h with h | ⟨h, -⟩
  · simp only [Column] at h
    simp [TileCombined.hasCount, h]
  · simp [TileCombined.hasCount, h]

/-- A value of a column is read. -/
theorem ColumnOr.tokenValue {α : Type} {read : Payload → Option α} {default : α}
    {values : Payload} {numbers : List Int} {d : Int} (h : ColumnOr d values numbers) {i : Nat}
    (hi : i < numbers.length) {a : α} (hread : read (Text.decimal numbers[i]) = some a)
    (hdefault : numbers[i] = d → a = default) :
    tokenValue read default (tokenize values ',') i = some a := by
  rcases h with h | ⟨rfl, hall⟩
  · have hne : tokenize values ',' ≠ [] := by
      rw [h]
      intro hnil
      rw [List.map_eq_nil_iff.mp hnil] at hi
      exact absurd hi (by simp)
    rw [CoolOnline.tokenValue, if_neg hne, h.getD hi, hread]
  · have hnil : tokenize [] ',' = [] := by simp [tokenize]
    rw [CoolOnline.tokenValue, hnil, if_pos rfl, hdefault (hall _ (List.getElem_mem hi))]

/-- A tile that a combined tile with the parameters of `c` can describe. -/
structure Describes (c : TileCombined) (t : TileDesc) : Prop where
  wellFormed : t.WellFormed
  same : t = ⟨c.canonicalViewId, c.part, c.mode, c.width, c.height, t.tilePosX, t.tilePosY,
    c.tileWidth, c.tileHeight, t.ver, t.imgSize, -1, t.oldWireId, t.wireId⟩

/-- The strings list the values of the tiles. -/
structure Columns (lists : TileLists) (tiles : List TileDesc) : Prop where
  tilePositionsX : Column lists.tilePositionsX (tiles.map (·.tilePosX))
  tilePositionsY : Column lists.tilePositionsY (tiles.map (·.tilePosY))
  vers : ColumnOr (-1) lists.vers (tiles.map (·.ver))
  imgSizes : ColumnOr 0 lists.imgSizes (tiles.map (·.imgSize))
  oldWireIds : ColumnOr 0 lists.oldWireIds (tiles.map fun t => t.oldWireId)
  wireIds : ColumnOr 0 lists.wireIds (tiles.map fun t => t.wireId)

variable {c : TileCombined} {lists : TileLists} {tiles : List TileDesc}

theorem tileAt_eq (hlists : Columns lists tiles) (htiles : ∀ t ∈ tiles, c.Describes t) {i : Nat}
    (hi : i < tiles.length) : c.tileAt lists i = some tiles[i] := by
  obtain ⟨hw, hsame⟩ := htiles _ (List.getElem_mem hi)
  have hread {n : Int} (hn : IsInt32 n) : i32FromString (Text.decimal n) = some n := by
    obtain ⟨hlo, hhi⟩ := hn
    rw [i32FromString_decimal (by omega) (by omega), toInt32_of_isInt32 ⟨hlo, hhi⟩]
  have hx : (tokenize lists.tilePositionsX ',').getD i [] = Text.decimal tiles[i].tilePosX := by
    rw [hlists.tilePositionsX.getD (by simpa using hi), List.getElem_map]
  have hy : (tokenize lists.tilePositionsY ',').getD i [] = Text.decimal tiles[i].tilePosY := by
    rw [hlists.tilePositionsY.getD (by simpa using hi), List.getElem_map]
  have himg : tokenValue i32FromString 0 (tokenize lists.imgSizes ',') i =
      some tiles[i].imgSize :=
    hlists.imgSizes.tokenValue (by simpa using hi) (by simpa using hread hw.imgSize) (by simp)
  have hver : tokenValue i32FromString (-1) (tokenize lists.vers ',') i = some tiles[i].ver :=
    hlists.vers.tokenValue (by simpa using hi) (by simpa using hread hw.ver) (by simp)
  have hold : tokenValue stringToUInt32 0 (tokenize lists.oldWireIds ',') i =
      some tiles[i].oldWireId :=
    hlists.oldWireIds.tokenValue (by simpa using hi)
      (by simpa using stringToUInt32_decimal hw.oldWireId) (by simp)
  have hwid : tokenValue stringToUInt32 0 (tokenize lists.wireIds ',') i =
      some tiles[i].wireId :=
    hlists.wireIds.tokenValue (by simpa using hi)
      (by simpa using stringToUInt32_decimal hw.wireId) (by simp)
  simp only [tileAt, hx, hy, himg, hver, hold, hwid, hread hw.tilePosX, hread hw.tilePosY,
    Option.bind_some, ← hsame, TileDesc.new, hw.valid, if_true]

theorem mapM_range_eq {α : Type} {f : Nat → Option α} {l : List α}
    (h : ∀ i, (hi : i < l.length) → f i = some l[i]) :
    (List.range l.length).mapM f = some l := by
  induction l generalizing f with
  | nil => rfl
  | cons a l ih =>
      have hzero : f 0 = some a := h 0 (by simp)
      have hrest : (List.range l.length).mapM (fun i => f (i + 1)) = some l :=
        ih fun i hi => h (i + 1) (by simpa using hi)
      simp only [List.length_cons, List.range_succ_eq_map, List.mapM_cons, List.mapM_map, hzero]
      simp [Function.comp_def, hrest]

/-- Where the strings list the values of tiles, the combined tile is made of these tiles. -/
theorem new_eq (hne : tiles ≠ []) (hlists : Columns lists tiles)
    (htiles : ∀ t ∈ tiles, c.Describes t) :
    c.new lists = some { c with
      tiles := tiles
      hasWids := tiles.any fun t => t.wireId != 0
      hasOldWids := tiles.any fun t => t.oldWireId != 0
      isCombined := true
      hasImgSizes := tiles.any fun t => t.imgSize != 0 } := by
  have hparams : 0 ≤ c.part ∧ 0 ≤ c.mode ∧ 0 < c.width ∧ 0 < c.height ∧ 0 < c.tileWidth ∧
      0 < c.tileHeight := by
    obtain ⟨t, ht⟩ := List.exists_mem_of_ne_nil tiles hne
    obtain ⟨hw, hsame⟩ := htiles t ht
    have hvalid := hw.valid
    rw [hsame] at hvalid
    simp only [TileDesc.isValid, Bool.and_eq_true, decide_eq_true_eq] at hvalid
    omega
  have hcount : (tokenize lists.tilePositionsX ',').length = tiles.length := by
    rw [hlists.tilePositionsX]
    simp
  have hcounts : (tokenize lists.tilePositionsY ',').length = tiles.length ∧
      hasCount tiles.length lists.imgSizes = true ∧ hasCount tiles.length lists.vers = true ∧
      hasCount tiles.length lists.oldWireIds = true ∧
      hasCount tiles.length lists.wireIds = true := by
    refine ⟨?_, ?_, ?_, ?_, ?_⟩
    · rw [hlists.tilePositionsY]
      simp
    · simpa using hlists.imgSizes.hasCount
    · simpa using hlists.vers.hasCount
    · simpa using hlists.oldWireIds.hasCount
    · simpa using hlists.wireIds.hasCount
  have hmap := mapM_range_eq fun i hi => tileAt_eq hlists htiles hi
  simp only [new, hparams, hcount, hcounts, hmap, and_self, if_true, Option.map_some]

/-- What `create` keeps of a tile. -/
def bare (t : TileDesc) : TileDesc := { t with imgSize := 0, id := -1 }

theorem column_listed (values : List Int) : Column (listed values) values :=
  tokenize_listed values

theorem column_separated (values : List Int) : Column (separated values) values :=
  tokenize_separated values

theorem describes_bare {first t : TileDesc} (hw : t.WellFormed)
    (hsame : first.sameTileCombineParams t = true) :
    (ofParams first.canonicalViewId first.part first.mode first.width first.height
      first.tileWidth first.tileHeight).Describes (bare t) := by
  have hvalid := hw.valid
  simp only [TileDesc.isValid, Bool.and_eq_true, decide_eq_true_eq] at hvalid
  simp only [TileDesc.sameTileCombineParams, Bool.and_eq_true, beq_iff_eq] at hsame
  refine ⟨⟨?_, hw.tilePosX, hw.tilePosY, hw.ver, ?_, hw.oldWireId, hw.wireId⟩, ?_⟩
  · simp [TileDesc.isValid, bare, hvalid]
  · exact (by decide : IsInt32 0)
  · simp [bare, ofParams, hsame]

/-- Tiles of the same parameters are combined as they are. -/
theorem create_eq {first : TileDesc} {rest : List TileDesc}
    (htiles : ∀ t ∈ first :: rest, t.WellFormed ∧ first.sameTileCombineParams t = true) :
    create (first :: rest) = some
      { ofParams first.canonicalViewId first.part first.mode first.width first.height
          first.tileWidth first.tileHeight with
        tiles := (first :: rest).map bare
        hasWids := ((first :: rest).map bare).any fun t => t.wireId != 0
        hasOldWids := ((first :: rest).map bare).any fun t => t.oldWireId != 0
        isCombined := true
        hasImgSizes := ((first :: rest).map bare).any fun t => t.imgSize != 0 } := by
  have hcolumns : Columns
      { tilePositionsX := listed ((first :: rest).map (·.tilePosX))
        tilePositionsY := listed ((first :: rest).map (·.tilePosY))
        vers := listed ((first :: rest).map (·.ver))
        imgSizes := []
        oldWireIds := listed ((first :: rest).map fun t => t.oldWireId)
        wireIds := listed ((first :: rest).map fun t => t.wireId) }
      ((first :: rest).map bare) := by
    refine ⟨?_, ?_, Or.inl ?_, Or.inr ⟨rfl, ?_⟩, Or.inl ?_, Or.inl ?_⟩
    · simpa [Function.comp_def, bare] using column_listed ((first :: rest).map (·.tilePosX))
    · simpa [Function.comp_def, bare] using column_listed ((first :: rest).map (·.tilePosY))
    · simpa [Function.comp_def, bare] using column_listed ((first :: rest).map (·.ver))
    · intro n hn
      obtain ⟨t, ht, rfl⟩ := List.mem_map.mp hn
      obtain ⟨t', -, rfl⟩ := List.mem_map.mp ht
      rfl
    · simpa [Function.comp_def, bare] using
        column_listed ((first :: rest).map fun t => (t.oldWireId : Int))
    · simpa [Function.comp_def, bare] using
        column_listed ((first :: rest).map fun t => (t.wireId : Int))
  have hdescribes : ∀ t ∈ (first :: rest).map bare, (ofParams first.canonicalViewId first.part
      first.mode first.width first.height first.tileWidth first.tileHeight).Describes t := by
    intro t ht
    obtain ⟨t', ht', rfl⟩ := List.mem_map.mp ht
    exact describes_bare (htiles t' ht').1 (htiles t' ht').2
  simp only [create, List.head?_cons, Option.bind_some]
  rw [new_eq (by simp) hcolumns hdescribes]

/-! ## The message -/

/-- The names and values of the message. -/
def pairs (c : TileCombined) : List (Payload × Payload) :=
  [(Word.nviewid, Text.decimal c.canonicalViewId), (Word.part, Text.decimal c.part),
    (Word.width, Text.decimal c.width), (Word.height, Text.decimal c.height),
    (Word.tileposx, separated (c.tiles.map (·.tilePosX))),
    (Word.tileposy, separated (c.tiles.map (·.tilePosY)))] ++
  (if c.hasImgSizes then [(Word.imgsize, separated (c.tiles.map (·.imgSize)))] else []) ++
  [(Word.tilewidth, Text.decimal c.tileWidth), (Word.tileheight, Text.decimal c.tileHeight),
    (Word.ver, separated (c.tiles.map (·.ver)))] ++
  (if c.hasOldWids then [(Word.oldwid, separated (c.tiles.map fun t => t.oldWireId))] else []) ++
  (if c.hasWids then [(Word.wid, separated (c.tiles.map fun t => t.wireId))] else []) ++
  (if c.mode ≠ 0 then [(Word.mode, Text.decimal c.mode)] else [])

theorem flatMap_pairs (pairs : List (Payload × Payload)) :
    ((pairs.map fun (name, value) => name ++ '=' :: value).flatMap fun token => ' ' :: token) =
      pairs.flatMap fun (name, value) => field name value := by
  rw [List.flatMap_map]
  rfl

/-- What is written for a pair that is there under a condition. -/
theorem flatMap_optional {P : Prop} [Decidable P] (pair : Payload × Payload)
    (f : Payload × Payload → Payload) :
    (if P then [pair] else []).flatMap f = if P then f pair else [] := by
  split
  case isTrue => exact List.flatMap_singleton f pair
  case isFalse => rfl

theorem serialize_eq (c : TileCombined) (start suffix : Payload) :
    c.serialize start suffix =
      [' '].intercalate (start :: c.pairs.map fun (name, value) => name ++ '=' :: value) ++
        suffix := by
  rw [Text.intercalate_cons, flatMap_pairs, pairs]
  simp only [List.flatMap_append, flatMap_optional]
  simp [serialize]

/-- The parameters are of their type. -/
structure ParamsInt32 (c : TileCombined) : Prop where
  canonicalViewId : IsInt32 c.canonicalViewId
  part : IsInt32 c.part
  mode : IsInt32 c.mode
  width : IsInt32 c.width
  height : IsInt32 c.height
  tileWidth : IsInt32 c.tileWidth
  tileHeight : IsInt32 c.tileHeight

/-- What is read of the message. -/
def received (c : TileCombined) : Args where
  lists :=
    { tilePositionsX := separated (c.tiles.map (·.tilePosX))
      tilePositionsY := separated (c.tiles.map (·.tilePosY))
      vers := separated (c.tiles.map (·.ver))
      imgSizes := if c.hasImgSizes then separated (c.tiles.map (·.imgSize)) else []
      oldWireIds := if c.hasOldWids then separated (c.tiles.map fun t => t.oldWireId) else []
      wireIds := if c.hasWids then separated (c.tiles.map fun t => t.wireId) else [] }
  params := ofParams c.canonicalViewId c.part c.mode c.width c.height c.tileWidth c.tileHeight

/-- What is left of a tile after the message. -/
@[simps] def sent (c : TileCombined) (t : TileDesc) : TileDesc :=
  { t with
    imgSize := if c.hasImgSizes then t.imgSize else 0
    id := -1
    oldWireId := if c.hasOldWids then t.oldWireId else 0
    wireId := if c.hasWids then t.wireId else 0 }

theorem parseNameValuePair_eq {name value : Payload} (hname : '=' ∉ name) :
    parseNameValuePair (name ++ '=' :: value) = some (name, value) := by
  have hall : ∀ c ∈ name, (c != '=') = true := by
    intro c hc
    have hne : c ≠ '=' := by
      rintro rfl
      exact hname hc
    simpa using hne
  have htake : (name ++ '=' :: value).takeWhile (· != '=') = name := by
    rw [List.takeWhile_append_of_pos hall]
    simp
  have hdrop : (name ++ '=' :: value).dropWhile (· != '=') = '=' :: value := by
    rw [List.dropWhile_append_of_pos hall]
    simp
  simp [parseNameValuePair, htake, hdrop]

/-- A parameter is read as it was printed. -/
theorem Args.set_decimal (a : Args) {name : Payload} {n : Int}
    (hname : name ∉ [Word.tileposx, Word.tileposy, Word.imgsize, Word.ver, Word.oldwid, Word.wid])
    (hn : IsInt32 n) : a.set name (Text.decimal n) = a.setParam name n := by
  have hread : i32FromString (Text.decimal n) = some n := by
    obtain ⟨hlo, hhi⟩ := hn
    rw [i32FromString_decimal (by omega) (by omega), toInt32_of_isInt32 ⟨hlo, hhi⟩]
  simp only [List.mem_cons, List.not_mem_nil, or_false, not_or] at hname
  simp only [Args.set, hname, if_false, hread]

theorem foldl_set_pairs {c : TileCombined} (hc : c.ParamsInt32) :
    c.pairs.foldl (fun a (name, value) => a.set name value) Args.start = c.received := by
  obtain ⟨hview, hpart, hmode, hwidth, hheight, htileWidth, htileHeight⟩ := hc
  simp only [pairs, List.foldl_append, List.foldl_cons, List.foldl_nil]
  rw [Args.set_decimal _ (by decide) hview, Args.set_decimal _ (by decide) hpart,
    Args.set_decimal _ (by decide) hwidth, Args.set_decimal _ (by decide) hheight,
    Args.set_decimal _ (by decide) htileWidth, Args.set_decimal _ (by decide) htileHeight]
  have hmodeSet (a : Args) : a.set Word.mode (Text.decimal c.mode) = a.setParam Word.mode c.mode :=
    a.set_decimal (by decide) hmode
  cases himg : c.hasImgSizes <;> cases hold : c.hasOldWids <;> cases hwid : c.hasWids <;>
    by_cases hzero : c.mode = 0 <;>
    simp only [himg, hold, hwid, hzero, ne_eq, not_true, not_false_iff, if_true, if_false,
      List.foldl_cons, List.foldl_nil, hmodeSet, received] <;> rfl

theorem decimal_ne_blank {n : Int} {c : Char} (hc : c ∈ Text.decimal n) : c ≠ ' ' ∧ c ≠ '\n' := by
  rcases Text.mem_decimal hc with rfl | hdigit
  · decide
  · constructor <;>
    · rintro rfl
      exact absurd hdigit (by decide)

theorem separated_ne_blank {values : List Int} {c : Char} (hc : c ∈ separated values) :
    c ≠ ' ' ∧ c ≠ '\n' := by
  rcases Text.mem_intercalate hc with rfl | ⟨f, hf, hc⟩
  · decide
  · obtain ⟨n, -, rfl⟩ := List.mem_map.mp hf
    exact decimal_ne_blank hc

/-- The names are read back from the tokens, and the values hold no blank. -/
theorem of_mem_pairs {c : TileCombined} {name value : Payload} (h : (name, value) ∈ c.pairs) :
    '=' ∉ name ∧ IsToken name ∧ ∀ d ∈ value, d ≠ ' ' ∧ d ≠ '\n' := by
  have hname : ∀ name ∈ [Word.nviewid, Word.part, Word.width, Word.height, Word.tileposx,
      Word.tileposy, Word.imgsize, Word.tilewidth, Word.tileheight, Word.ver, Word.oldwid,
      Word.wid, Word.mode], '=' ∉ name ∧ IsToken name := by
    decide
  have hpair : name ∈ [Word.nviewid, Word.part, Word.width, Word.height, Word.tileposx,
      Word.tileposy, Word.imgsize, Word.tilewidth, Word.tileheight, Word.ver, Word.oldwid,
      Word.wid, Word.mode] ∧ ((∃ n, value = Text.decimal n) ∨ ∃ values, value = separated values) := by
    simp only [pairs, List.mem_append, List.mem_cons, List.mem_ite_nil_right, Prod.mk.injEq,
      List.not_mem_nil, or_false] at h
    simp only [List.mem_cons, List.not_mem_nil, or_false]
    grind
  obtain ⟨hmem, hvalue⟩ := hpair
  refine ⟨(hname name hmem).1, (hname name hmem).2, fun d hd => ?_⟩
  rcases hvalue with ⟨n, rfl⟩ | ⟨values, rfl⟩
  · exact decimal_ne_blank hd
  · exact separated_ne_blank hd

theorem isToken_of_mem_message {c : TileCombined} {start token : Payload} (hstart : IsToken start)
    (ht : token ∈ start :: c.pairs.map fun (name, value) => name ++ '=' :: value) :
    IsToken token := by
  rcases List.mem_cons.mp ht with rfl | ht
  · exact hstart
  · obtain ⟨⟨name, value⟩, hmem, rfl⟩ := List.mem_map.mp ht
    obtain ⟨-, hname, hvalue⟩ := of_mem_pairs hmem
    refine hname.append_of_forall fun d hd => ?_
    rcases List.mem_cons.mp hd with rfl | hd
    · decide
    · exact hvalue d hd

/-- The message is one line. -/
theorem not_mem_serialize (c : TileCombined) {start : Payload} (hstart : IsToken start) :
    '\n' ∉ c.serialize start [] := by
  rw [serialize_eq, List.append_nil]
  intro hmem
  rcases Text.mem_intercalate hmem with hblank | ⟨token, ht, hline⟩
  · exact absurd hblank (by decide)
  · exact (isToken_of_mem_message hstart ht).2 hline

theorem serialize_append (c : TileCombined) (start suffix : Payload) :
    c.serialize start suffix = c.serialize start [] ++ suffix := by
  rw [serialize_eq, serialize_eq, List.append_nil]

/-- A combined tile is read back from its message, as it was sent. -/
theorem parse_serialize {c : TileCombined} {start : Payload} (hstart : IsToken start)
    (hequals : '=' ∉ start) (hnul : start.head? ≠ some '\x00') (hne : c.tiles ≠ [])
    (hc : c.ParamsInt32) (htiles : ∀ t ∈ c.tiles, c.Describes (c.sent t)) :
    parse (c.serialize start []) = some
      { c with
        tiles := c.tiles.map c.sent
        hasWids := (c.tiles.map c.sent).any fun t => t.wireId != 0
        hasOldWids := (c.tiles.map c.sent).any fun t => t.oldWireId != 0
        isCombined := true
        hasImgSizes := (c.tiles.map c.sent).any fun t => t.imgSize != 0 } := by
  have htokens : tokenize (c.serialize start []) ' ' =
      start :: c.pairs.map fun (name, value) => name ++ '=' :: value := by
    rw [serialize_eq, List.append_nil]
    apply tokenize_intercalate
    · exact fun token ht => isToken_of_mem_message hstart ht
    · obtain ⟨⟨hsome, -⟩, -⟩ := hstart
      obtain ⟨d, rest, rfl⟩ := List.exists_cons_of_ne_nil hsome
      simpa [Text.intercalate_cons] using hnul
  have hargs : (tokenize (c.serialize start []) ' ').foldl Args.readToken Args.start =
      c.received := by
    have hfirst : Args.start.readToken start = Args.start := by
      simp [Args.readToken, parseNameValuePair, hequals]
    rw [htokens, List.foldl_cons, hfirst, List.foldl_map, ← foldl_set_pairs hc]
    apply List.foldl_ext
    intro a ⟨name, value⟩ hmem
    simp only [Args.readToken, parseNameValuePair_eq (of_mem_pairs hmem).1]
  have hcolumns : Columns c.received.lists (c.tiles.map c.sent) := by
    have hor (flag : Bool) (f : TileDesc → Int) :
        ColumnOr 0 (if flag then separated (c.tiles.map f) else [])
          (c.tiles.map fun t => if flag then f t else 0) := by
      cases flag
      · exact Or.inr ⟨rfl, by simp⟩
      · exact Or.inl (column_separated _)
    refine ⟨?_, ?_, Or.inl ?_, ?_, ?_, ?_⟩
    · simpa [Function.comp_def, sent, received] using column_separated (c.tiles.map (·.tilePosX))
    · simpa [Function.comp_def, sent, received] using column_separated (c.tiles.map (·.tilePosY))
    · simpa [Function.comp_def, sent, received] using column_separated (c.tiles.map (·.ver))
    · simpa [Function.comp_def, sent, received] using
        hor c.hasImgSizes fun t => t.imgSize
    · simpa [Function.comp_def, sent, received, apply_ite (Nat.cast (R := Int))] using
        hor c.hasOldWids fun t => (t.oldWireId : Int)
    · simpa [Function.comp_def, sent, received, apply_ite (Nat.cast (R := Int))] using
        hor c.hasWids fun t => (t.wireId : Int)
  have hdescribes : ∀ t ∈ c.tiles.map c.sent, c.received.params.Describes t := by
    intro t ht
    obtain ⟨t', ht', rfl⟩ := List.mem_map.mp ht
    obtain ⟨hw, hsame⟩ := htiles t' ht'
    exact ⟨hw, hsame⟩
  simp only [parse, hargs]
  rw [new_eq (by simpa using hne) hcolumns hdescribes]
  rfl

end TileCombined

/-! ## What is read is well formed -/

theorem toUInt32_lt (n : Int) : toUInt32 n < 2 ^ 32 := by
  have hmod := Int.emod_lt_of_pos n (b := 2 ^ 32) (by decide)
  simp only [toUInt32]
  omega

theorem lt_of_getUInt32 {token name : Payload} {n : Nat} (h : getUInt32 token name = some n) :
    n < 2 ^ 32 := by
  simp only [getUInt32] at h
  split at h
  · cases h
    exact toUInt32_lt _
  · cases h

theorem isInt32_of_getNameIntegerPair {token name : Payload} {value : Int}
    (h : getNameIntegerPair token = some (name, value)) : IsInt32 value := by
  simp only [getNameIntegerPair] at h
  split at h
  · split at h
    · next hrange =>
        cases h
        exact ⟨by omega, by omega⟩
    · cases h
  · cases h

namespace TileDesc

/-- The fields that are read are of their types. -/
structure FieldRanges (t : TileDesc) : Prop where
  tilePosX : IsInt32 t.tilePosX
  tilePosY : IsInt32 t.tilePosY
  ver : IsInt32 t.ver
  imgSize : IsInt32 t.imgSize
  oldWireId : t.oldWireId < 2 ^ 32
  wireId : t.wireId < 2 ^ 32

theorem FieldRanges.setArg {t : TileDesc} (h : FieldRanges t) (arg : Payload) {value : Int}
    (hvalue : IsInt32 value) : FieldRanges (t.setArg arg value) := by
  obtain ⟨hx, hy, hver, himg, hold, hwid⟩ := h
  have hite {p : Prop} [Decidable p] {a b : TileDesc} (ha : FieldRanges a) (hb : FieldRanges b) :
      FieldRanges (if p then a else b) := by
    split
    · exact ha
    · exact hb
  simp only [TileDesc.setArg]
  repeat' apply hite
  all_goals constructor <;> assumption

theorem FieldRanges.readToken {t : TileDesc} (h : FieldRanges t) (token : Payload) :
    FieldRanges (t.readToken token) := by
  simp only [TileDesc.readToken]
  split
  · next hold => exact { h with oldWireId := lt_of_getUInt32 hold }
  · next hwid => exact { h with wireId := lt_of_getUInt32 hwid }
  · next hpair => exact h.setArg _ (isInt32_of_getNameIntegerPair hpair)
  · exact h

theorem WellFormed.of_new {t t' : TileDesc} (hranges : FieldRanges t) (h : t.new = some t') :
    t'.WellFormed := by
  simp only [TileDesc.new] at h
  split at h
  · next hvalid =>
      cases h
      obtain ⟨hx, hy, hver, himg, hold, hwid⟩ := hranges
      exact ⟨hvalid, hx, hy, hver, himg, hold, hwid⟩
  · cases h

theorem wellFormed_of_parse {message : Payload} {t : TileDesc} (h : parse message = some t) :
    t.WellFormed := by
  have hstart : FieldRanges parseDefaults := by
    constructor <;> decide
  have hall : ∀ (tokens : List Payload) (t : TileDesc), FieldRanges t →
      FieldRanges (tokens.foldl TileDesc.readToken t) := by
    intro tokens
    induction tokens with
    | nil => exact fun t ht => ht
    | cons token tokens ih => exact fun t ht => ih _ (ht.readToken token)
  exact WellFormed.of_new (hall _ _ hstart) h

end TileDesc

namespace TileCombined

theorem isInt32_of_i32FromString {text : Payload} {n : Int} (h : i32FromString text = some n) :
    IsInt32 n := by
  obtain ⟨m, -, h⟩ := Option.bind_eq_some_iff.mp h
  split at h
  · cases h
    exact isInt32_toInt32 m
  · cases h

theorem of_tokenValue {α : Type} {read : Payload → Option α} {default a : α}
    {tokens : List Payload} {i : Nat} {P : α → Prop} (hdefault : P default)
    (hread : ∀ text a, read text = some a → P a)
    (h : tokenValue read default tokens i = some a) : P a := by
  simp only [tokenValue] at h
  split at h
  · cases h
    exact hdefault
  · exact hread _ _ h

theorem lt_of_stringToUInt32 {text : Payload} {n : Nat} (h : stringToUInt32 text = some n) :
    n < 2 ^ 32 := by
  obtain ⟨m, -, rfl⟩ := Option.map_eq_some_iff.mp h
  exact toUInt32_lt m

/-- What is read of a tile fits its type, under the parameters. -/
theorem of_tileAt {c : TileCombined} {lists : TileLists} {i : Nat} {t : TileDesc}
    (h : c.tileAt lists i = some t) : c.Describes t := by
  simp only [tileAt, Option.bind_eq_some_iff] at h
  obtain ⟨x, hx, y, hy, imgSize, himg, ver, hver, oldWireId, hold, wireId, hwid, h⟩ := h
  have hint {default : Int} {tokens : List Payload} {n : Int} (hdefault : IsInt32 default)
      (h : tokenValue i32FromString default tokens i = some n) : IsInt32 n :=
    of_tokenValue hdefault (fun _ _ => isInt32_of_i32FromString) h
  have hwire {tokens : List Payload} {n : Nat}
      (h : tokenValue stringToUInt32 0 tokens i = some n) : n < 2 ^ 32 :=
    of_tokenValue (P := fun n => n < 2 ^ 32) (by decide) (fun _ _ => lt_of_stringToUInt32) h
  refine ⟨TileDesc.WellFormed.of_new ⟨isInt32_of_i32FromString hx, isInt32_of_i32FromString hy,
    hint (by decide) hver, hint (by decide) himg, hwire hold, hwire hwid⟩ h, ?_⟩
  simp only [TileDesc.new] at h
  split at h
  · cases h
    rfl
  · cases h

theorem exists_of_mem_mapM {α β : Type} {f : α → Option β} {l : List α} {l' : List β}
    (h : l.mapM f = some l') {b : β} (hb : b ∈ l') : ∃ a, f a = some b := by
  induction l generalizing l' with
  | nil =>
      simp only [List.mapM_nil] at h
      cases h
      simp at hb
  | cons a l ih =>
      simp only [List.mapM_cons, Option.pure_def, Option.bind_eq_bind, Option.bind_eq_some_iff,
        Option.some.injEq] at h
      obtain ⟨b', hb', rest, hrest, rfl⟩ := h
      rcases List.mem_cons.mp hb with rfl | hb
      · exact ⟨a, hb'⟩
      · exact ih hrest hb

/-- The tiles fit the parameters. -/
structure Uniform (c : TileCombined) : Prop where
  params : c.ParamsInt32
  describes : ∀ t ∈ c.tiles, c.Describes { t with id := -1 }

theorem Uniform.of_new {c c' : TileCombined} {lists : TileLists} (hc : c.ParamsInt32)
    (h : c.new lists = some c') : c'.Uniform ∧ ∀ t ∈ c'.tiles, t.WellFormed ∧ t.id = -1 := by
  simp only [new] at h
  split at h
  · split at h
    · obtain ⟨tiles, htiles, rfl⟩ := Option.map_eq_some_iff.mp h
      have hread {t : TileDesc} (ht : t ∈ tiles) : c.Describes t ∧ t.id = -1 := by
        obtain ⟨i, hi⟩ := exists_of_mem_mapM htiles ht
        have hdescribes := of_tileAt hi
        exact ⟨hdescribes, congrArg TileDesc.id hdescribes.same⟩
      refine ⟨⟨⟨hc.1, hc.2, hc.3, hc.4, hc.5, hc.6, hc.7⟩, fun t ht => ?_⟩, fun t ht => ?_⟩
      · obtain ⟨⟨hwell, hsame⟩, hid⟩ := hread ht
        have heq : { t with id := -1 } = t := by
          rw [← hid]
        rw [heq]
        exact ⟨hwell, hsame⟩
      · exact ⟨(hread ht).1.wellFormed, (hread ht).2⟩
    · cases h
  · cases h

theorem ParamsInt32.setParam {a : Args} (h : a.params.ParamsInt32) (arg : Payload) {value : Int}
    (hvalue : IsInt32 value) : (a.setParam arg value).params.ParamsInt32 := by
  obtain ⟨hview, hpart, hmode, hwidth, hheight, htileWidth, htileHeight⟩ := h
  have hite {p : Prop} [Decidable p] {a b : Args} (ha : a.params.ParamsInt32)
      (hb : b.params.ParamsInt32) : (if p then a else b).params.ParamsInt32 := by
    split
    · exact ha
    · exact hb
  simp only [Args.setParam]
  repeat' apply hite
  all_goals constructor <;> assumption

theorem ParamsInt32.readToken {a : Args} (h : a.params.ParamsInt32) (token : Payload) :
    (a.readToken token).params.ParamsInt32 := by
  have hite {p : Prop} [Decidable p] {a b : Args} (ha : a.params.ParamsInt32)
      (hb : b.params.ParamsInt32) : (if p then a else b).params.ParamsInt32 := by
    split
    · exact ha
    · exact hb
  simp only [Args.readToken]
  split
  · next name value hpair =>
      simp only [Args.set]
      repeat' apply hite
      all_goals try exact h
      split
      · next v hread => exact h.setParam _ (isInt32_of_i32FromString hread)
      · exact h
  · exact h

theorem Uniform.of_parse {message : Payload} {c : TileCombined} (h : parse message = some c) :
    c.Uniform ∧ ∀ t ∈ c.tiles, t.WellFormed ∧ t.id = -1 := by
  have hstart : Args.start.params.ParamsInt32 := by
    constructor <;> exact (by decide : IsInt32 0)
  have hall : ∀ (tokens : List Payload) (a : Args), a.params.ParamsInt32 →
      (tokens.foldl Args.readToken a).params.ParamsInt32 := by
    intro tokens
    induction tokens with
    | nil => exact fun a ha => ha
    | cons token tokens ih => exact fun a ha => ih _ (ha.readToken token)
  exact Uniform.of_new (hall _ _ hstart) h

end TileCombined

end CoolOnline
