import CoolOnline.Wsd.TileDesc

/-! # The message of a single tile

`TileDesc::serialize` of `wsd/TileDesc.hpp`: the names and values of the message, and that it is
one line.
-/

namespace CoolOnline.TileDesc

open StringVector

/-- The names and values of the message. -/
def pairs (t : TileDesc) : List (Payload × Payload) :=
  [(Word.nviewid, Text.decimal t.canonicalViewId), (Word.part, Text.decimal t.part),
    (Word.width, Text.decimal t.width), (Word.height, Text.decimal t.height),
    (Word.tileposx, Text.decimal t.tilePosX), (Word.tileposy, Text.decimal t.tilePosY),
    (Word.tilewidth, Text.decimal t.tileWidth), (Word.tileheight, Text.decimal t.tileHeight)] ++
  (if t.oldWireId ≠ 0 then [(Word.oldwid, Text.decimal t.oldWireId)] else []) ++
  (if t.wireId ≠ 0 then [(Word.wid, Text.decimal t.wireId)] else []) ++
  [(Word.ver, Text.decimal t.ver)] ++
  (if 0 ≤ t.id then [(Word.tileId, Text.decimal t.id)] else []) ++
  (if 0 < t.imgSize then [(Word.imgsize, Text.decimal t.imgSize)] else []) ++
  (if t.mode ≠ 0 then [(Word.mode, Text.decimal t.mode)] else [])

/-- The tokens after the first one. -/
def tokens (t : TileDesc) : List Payload := t.pairs.map fun (name, value) => name ++ '=' :: value

theorem tokens_eq (t : TileDesc) :
    t.tokens = t.pairs.map fun pair => pair.1 ++ '=' :: pair.2 := rfl

theorem serialize_eq (t : TileDesc) (start suffix : Payload) :
    t.serialize start suffix = [' '].intercalate (start :: t.tokens) ++ suffix := by
  rw [Text.intercalate_cons, tokens, TileCombined.flatMap_pairs, pairs]
  simp only [List.flatMap_append, TileCombined.flatMap_optional]
  simp [serialize]

theorem serialize_append (t : TileDesc) (start suffix : Payload) :
    t.serialize start suffix = t.serialize start [] ++ suffix := by
  rw [serialize_eq, serialize_eq, List.append_nil]

theorem serialize_start (t : TileDesc) (start suffix : Payload) :
    t.serialize start suffix = start ++ t.serialize [] suffix := by
  simp [serialize]

/-- The names, and that every value is a number. -/
theorem of_mem_pairs {t : TileDesc} {name value : Payload} (h : (name, value) ∈ t.pairs) :
    name ∈ [Word.nviewid, Word.part, Word.width, Word.height, Word.tileposx, Word.tileposy,
      Word.tilewidth, Word.tileheight, Word.oldwid, Word.wid, Word.ver, Word.tileId,
      Word.imgsize, Word.mode] ∧ ∃ n, value = Text.decimal n := by
  simp only [pairs, List.mem_append, List.mem_cons, List.mem_ite_nil_right, Prod.mk.injEq,
    List.not_mem_nil, or_false] at h
  simp only [List.mem_cons, List.not_mem_nil, or_false]
  grind

theorem isToken_of_mem_tokens {t : TileDesc} {token : Payload} (ht : token ∈ t.tokens) :
    IsToken token := by
  have hnames : ∀ name ∈ [Word.nviewid, Word.part, Word.width, Word.height, Word.tileposx,
      Word.tileposy, Word.tilewidth, Word.tileheight, Word.oldwid, Word.wid, Word.ver,
      Word.tileId, Word.imgsize, Word.mode], IsToken name := by
    decide
  obtain ⟨⟨name, value⟩, hmem, rfl⟩ := List.mem_map.mp ht
  obtain ⟨hname, n, rfl⟩ := of_mem_pairs hmem
  apply (hnames name hname).append_of_forall
  intro c hc
  rcases List.mem_cons.mp hc with rfl | hc
  · decide
  · exact TileCombined.decimal_ne_blank hc

/-- The message is one line. -/
theorem not_mem_serialize (t : TileDesc) {start : Payload} (hstart : '\n' ∉ start) :
    '\n' ∉ t.serialize start [] := by
  rw [serialize_eq, List.append_nil]
  intro hmem
  rcases Text.mem_intercalate hmem with hblank | ⟨token, ht, hline⟩
  · exact absurd hblank (by decide)
  · rcases List.mem_cons.mp ht with rfl | ht
    · exact hstart hline
    · exact (isToken_of_mem_tokens ht).2 hline

end CoolOnline.TileDesc
