import CoolOnline.Kit.DeltaEncoder

/-! # The browser rebuilds the tile

Applying what `makeDelta` writes to the previous image gives the current one.
-/

namespace CoolOnline.Delta

open ListWrite Browser

theorem EncodedOp.bytes_length_pos (mode : TileMode) (e : EncodedOp) :
    0 < (e.bytes mode).length := by
  cases e <;> simp [bytes]

theorem length_le_flatMap_bytes (mode : TileMode) (es : List EncodedOp) :
    es.length ≤ (es.flatMap (EncodedOp.bytes mode)).length := by
  induction es with
  | nil => exact Nat.le_refl 0
  | cons e es ih =>
      have hpos := e.bytes_length_pos mode
      simp only [List.flatMap_cons, List.length_cons, List.length_append]
      omega

theorem makeDelta_eq_makeDeltaBytes (prev cur : DeltaData) (mode : TileMode)
    (hwidth : prev.width = cur.width) (hheight : prev.height = cur.height) :
    makeDelta some prev cur mode = some (68 :: makeDeltaBytes prev cur mode) := by
  simp only [makeDelta, makeDeltaBytes, hwidth, hheight, ne_eq, not_true_eq_false, or_self,
    if_false]
  split <;> rfl

/-- Executing the bytes of valid operations applies these operations and nothing else. -/
theorem applyDeltaChunk_ops (mode : TileMode) {width height : Nat} (prev : Pixmap width height)
    (es : List EncodedOp) (hes : ∀ e ∈ es, e.Valid width height) :
    applyDeltaChunk (imageBytes mode prev.rows) (es.flatMap (EncodedOp.bytes mode) ++ [116])
        (imageBytes mode prev.rows) width =
      some ⟨imageBytes mode (es.foldl (EncodedOp.apply prev.rows) prev.rows),
        (es.flatMap (EncodedOp.bytes mode) ++ [116]).length, true, es.map EncodedOp.op⟩ := by
  have hlen := length_le_flatMap_bytes mode es
  have hrun := deltaLoop_ops mode prev.row_length prev.rows_length es hes prev.row_length
    prev.rows_length (es.flatMap (EncodedOp.bytes mode) ++ [116]) 0
    ((es.flatMap (EncodedOp.bytes mode) ++ [116]).length + 1) [] rfl
    (by rw [List.length_append, List.length_singleton]; omega)
  simpa only [applyDeltaChunk, List.nil_append] using hrun

/-- The browser turns the image of `prev` into the image of `cur`, consumes the whole delta,
stops at its `'t'`, and executes only operations that stay inside the tile. -/
theorem applyDeltaChunk_makeDelta {width height : Nat} (prev cur : Pixmap width height)
    (mode : TileMode) (hasAVX2 : Bool) (hwidth : width ≤ 256) (hheight : height ≤ 256) :
    let delta := makeDeltaBytes (.ofPixmap hasAVX2 prev) (.ofPixmap hasAVX2 cur) mode
    makeDelta some (.ofPixmap hasAVX2 prev) (.ofPixmap hasAVX2 cur) mode = some (68 :: delta) ∧
    ∃ final, applyDeltaChunk (imageBytes mode prev.rows) delta (imageBytes mode prev.rows) width =
        some final ∧
      final.imgData = imageBytes mode cur.rows ∧ final.i = delta.length ∧
      (delta ≠ [] → final.stop = true ∧ delta.getLast? = some 116) ∧
      ∀ op ∈ final.ops, op.InBounds width height := by
  intro delta
  refine ⟨makeDelta_eq_makeDeltaBytes _ _ mode rfl rfl, ?_⟩
  obtain ⟨es, hout, hvalid, hrows⟩ := makeRows_spec hasAVX2 prev cur mode hwidth hheight
  by_cases hempty : es = []
  · have hdelta : delta = [] := by simp [delta, makeDeltaBytes, hout, hempty]
    have hsame : prev.rows = cur.rows := by simpa [hempty] using hrows
    refine ⟨⟨imageBytes mode prev.rows, 0, false, []⟩, ?_, ?_, ?_, ?_, ?_⟩
    · simp [hdelta, applyDeltaChunk, deltaLoop]
    · rw [hsame]
    · simp [hdelta]
    · simp [hdelta]
    · simp
  · have hne : es.flatMap (EncodedOp.bytes mode) ≠ [] := by
      have hle := length_le_flatMap_bytes mode es
      have hpos := List.length_pos_of_ne_nil hempty
      intro h
      rw [h, List.length_nil] at hle
      omega
    have hdelta : delta = es.flatMap (EncodedOp.bytes mode) ++ [116] := by
      simp only [delta, makeDeltaBytes, hout, if_neg hne]
    refine ⟨_, by rw [hdelta]; exact applyDeltaChunk_ops mode prev es hvalid, ?_, ?_, ?_, ?_⟩
    · rw [hrows]
    · rw [hdelta]
    · intro _
      simp [hdelta]
    · intro op hop
      obtain ⟨e, he, rfl⟩ := List.mem_map.mp hop
      exact (hvalid e he).1

/-- Two rows moved by one are a single extended copy; the new row is a run. -/
example :
    let px (n : UInt8) : Pixel := ⟨n, n, n, 255⟩
    let prev : Pixmap 2 4 :=
      ⟨[[px 1, px 1], [px 2, px 2], [px 3, px 3], [px 4, px 4]], rfl, by decide⟩
    let cur : Pixmap 2 4 :=
      ⟨[[px 9, px 2], [px 1, px 1], [px 2, px 2], [px 4, px 4]], rfl, by decide⟩
    makeDeltaBytes (.ofPixmap false prev) (.ofPixmap false cur) .rgba =
      [100, 0, 0, 2, 9, 9, 9, 255, 2, 2, 2, 255, 99, 2, 0, 1, 116] := by
  decide +kernel

/-- A red pixel moved down a row, with a green one in its place. -/
theorem applyDeltaChunk_makeDelta_moved :
    let red : Pixel := ⟨255, 0, 0, 255⟩
    let green : Pixel := ⟨0, 255, 0, 255⟩
    let prev : Pixmap 2 2 := ⟨[[red, red], [green, red]], rfl, by decide⟩
    let cur : Pixmap 2 2 := ⟨[[green, green], [red, red]], rfl, by decide⟩
    let delta := makeDeltaBytes (.ofPixmap true prev) (.ofPixmap true cur) .bgra
    ∃ final, applyDeltaChunk (imageBytes .bgra prev.rows) delta (imageBytes .bgra prev.rows) 2 =
        some final ∧
      final.imgData = imageBytes .bgra cur.rows ∧ final.i = delta.length := by
  intro red green prev cur delta
  obtain ⟨-, final, hrun, himg, hi, -⟩ :=
    applyDeltaChunk_makeDelta prev cur .bgra true (by decide) (by decide)
  exact ⟨final, hrun, himg, hi⟩

end CoolOnline.Delta
