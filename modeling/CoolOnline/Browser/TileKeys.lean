import CoolOnline.Browser.Tile
import CoolOnline.Library.LeadingNumber
import CoolOnline.Library.OrderedMap

/-! # Keys of tiles

`TileCoordData.key` of `browser/src/app/TilesMiddleware.ts` and what `parseKey` reads of a key.
-/

namespace CoolOnline.Browser

open Text

/-- The unary plus on a string: a number, or `NaN`. No text is 0. Numbers that are written in another
way than with decimal digits are left out. -/
def toNumber (text : Key) : Option Int :=
  if text.all isSpace then some 0
  else if (behindNumber text).all isSpace then leadingInt text else none

theorem toNumber_decimal (n : Int) : toNumber (decimal n) = some n := by
  obtain ⟨c, rest, hdecimal, hspace, -⟩ := exists_digits n
  rw [toNumber, behindNumber_decimal, hdecimal, List.all_cons, hspace, ← hdecimal]
  exact leadingInt_decimal n

namespace TileCoordData

/-- The coordinates that `parseKey` makes, where each may be `NaN`. -/
structure Parsed where
  x : Option Int
  y : Option Int
  z : Option Int
  part : Option Int
  mode : Option Int
deriving DecidableEq

/-- The parts of a key, for `keyToTileCoords`, too. Those that are missing are undefined, which makes
`NaN`. The assertion that there are at least five only writes to the console. -/
def parseKey (key : Key) : Parsed :=
  let k := key.splitOn ':'
  let number (i : Nat) : Option Int := k[i]?.bind toNumber
  let mode := if k.length = 4 then number 4 else some 0
  ⟨number 0, number 1, number 2, number 3, mode⟩

theorem splitOn_key (c : TileCoordData) :
    c.key.splitOn ':' =
      [decimal c.x, decimal c.y, decimal c.z, decimal c.part, decimal c.mode] := by
  refine List.splitOn_intercalate ':' (fun field hfield hcolon => ?_) (List.cons_ne_nil _ _)
  simp only [List.mem_cons, List.not_mem_nil, or_false] at hfield
  obtain ⟨n, rfl⟩ : ∃ n, field = decimal n := by
    rcases hfield with h | h | h | h | h
    all_goals exact ⟨_, h⟩
  rcases mem_decimal hcolon with h | h
  · exact absurd h (by decide)
  · exact absurd h (by decide)

/-- A key has five parts, and the mode is looked for in those with four. -/
theorem parseKey_key (c : TileCoordData) :
    parseKey c.key = ⟨some c.x, some c.y, some c.z, some c.part, some 0⟩ := by
  simp [parseKey, splitOn_key, toNumber_decimal]

/-- The key of a tile is read back, no other tile has it, and what is kept under it is not what is
kept under the key of another tile. -/
structure Identifies (c : TileCoordData) : Prop where
  parsed : parseKey c.key = ⟨some c.x, some c.y, some c.z, some c.part, some c.mode⟩
  unique (c' : TileCoordData) (h : c'.key = c.key) :
    c'.x = c.x ∧ c'.y = c.y ∧ c'.z = c.z ∧ c'.part = c.part ∧ c'.mode = c.mode
  apart (α : Type) (m : OrderedMap Key α) (a : α) (c' : TileCoordData) (h : c' ≠ c) :
    (m.set c.key a).get c'.key = m.get c'.key

theorem identifies_iff (c : TileCoordData) : Identifies c ↔ c.mode = 0 := by
  constructor
  · intro h
    have hparsed := (parseKey_key c).symm.trans h.parsed
    rw [Parsed.mk.injEq, Option.some.injEq (0 : Int)] at hparsed
    exact hparsed.2.2.2.2.symm
  · intro hmode
    refine ⟨by rw [parseKey_key, hmode], fun c' h => ?_, fun α m a c' hne => ?_⟩
    · obtain rfl := key_injective h
      exact ⟨rfl, rfl, rfl, rfl, rfl⟩
    · exact OrderedMap.get_set_ne fun h => hne (key_injective h).symm

/-- A tile of another mode. -/
theorem not_identifies : ¬ Identifies ⟨256, 0, 10, 0, 1⟩ := by
  intro h
  have hparsed := (parseKey_key _).symm.trans h.parsed
  exact absurd hparsed (by decide)

end TileCoordData

end CoolOnline.Browser
