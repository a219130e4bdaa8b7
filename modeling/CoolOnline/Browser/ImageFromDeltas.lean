import CoolOnline.Kit.DeltaRoundTrip
import CoolOnline.Kit.Keyframe

/-! # The image from a keyframe and its deltas

`updateImageFromDeltas` of `browser/src/layer/tile/CanvasTileUtils.ts`, and what becomes of the data
of a tile once it is decompressed: a keyframe with the deltas after it gives the last pixmap, and so
does the image before with the deltas after that.
-/

namespace CoolOnline.Browser

open Delta ListWrite

/-- The `while` of `updateImageFromDeltas`; every round goes on by what `applyDeltaChunk` returns. -/
def updateLoop (deltas : List UInt8) (tileSize : Nat) : Nat → Nat → List UInt8 →
    Option (List UInt8)
  | 0, _, _ => none
  | rounds + 1, offset, imageData =>
      if offset < deltas.length then
        (applyDeltaChunk imageData (deltas.drop offset) imageData tileSize).bind fun s =>
          updateLoop deltas tileSize rounds (offset + s.i) s.imgData
      else some imageData

def updateImageFromDeltas (imageData deltas : List UInt8) (keyframeDeltaSize tileSize : Nat) :
    Option (List UInt8) :=
  updateLoop deltas tileSize (deltas.length + 1) keyframeDeltaSize imageData

/-- What `onWorkerMessage` and the workers make of decompressed data that starts with a keyframe. -/
def imageOfKeyframe (deltas : List UInt8) (tileSize : Nat) : Option (List UInt8) :=
  (unrle deltas tileSize tileSize (List.replicate (tileSize * tileSize * 4) 0) 0).bind fun r =>
    updateImageFromDeltas r.2 deltas r.1 tileSize

variable {tileSize : Nat} {mode : TileMode}

/-- The deltas of pixmaps that follow one another. -/
def deltaBytesOf (hasAVX2 : Bool) (mode : TileMode) (prev : Pixmap tileSize tileSize) :
    List (Pixmap tileSize tileSize) → List UInt8
  | [] => []
  | cur :: later =>
      makeDeltaBytes (.ofPixmap hasAVX2 prev) (.ofPixmap hasAVX2 cur) mode ++
        deltaBytesOf hasAVX2 mode cur later

/-- One delta in front of others turns the image of a pixmap into that of the next one. -/
theorem applyDeltaChunk_makeDeltaBytes_append (hasAVX2 : Bool)
    (prev cur : Pixmap tileSize tileSize) (hsize : tileSize ≤ 256) (rest : List UInt8)
    (hne : makeDeltaBytes (.ofPixmap hasAVX2 prev) (.ofPixmap hasAVX2 cur) mode ≠ []) :
    ∃ s, applyDeltaChunk (imageBytes mode prev.rows)
        (makeDeltaBytes (.ofPixmap hasAVX2 prev) (.ofPixmap hasAVX2 cur) mode ++ rest)
        (imageBytes mode prev.rows) tileSize = some s ∧
      s.imgData = imageBytes mode cur.rows ∧
      s.i = (makeDeltaBytes (.ofPixmap hasAVX2 prev) (.ofPixmap hasAVX2 cur) mode).length := by
  obtain ⟨es, hout, hvalid, hrows⟩ := makeRows_spec hasAVX2 prev cur mode hsize hsize
  have hbytes : makeDeltaBytes (.ofPixmap hasAVX2 prev) (.ofPixmap hasAVX2 cur) mode =
      es.flatMap (EncodedOp.bytes mode) ++ [116] := by
    simp only [makeDeltaBytes, hout] at hne ⊢
    split
    · rename_i hnil
      simp [hnil] at hne
    · rfl
  have hlen := length_le_flatMap_bytes mode es
  have hrun := deltaLoop_ops_append mode prev.row_length prev.rows_length es hvalid
    prev.row_length prev.rows_length (es.flatMap (EncodedOp.bytes mode) ++ [116] ++ rest) rest 0
    ((es.flatMap (EncodedOp.bytes mode) ++ [116] ++ rest).length + 1) [] (by simp)
    (by simp only [List.length_append, List.length_singleton]; omega)
  rw [hbytes]
  refine ⟨_, hrun, ?_, ?_⟩
  · rw [hrows]
  · simp

theorem rows_eq_of_makeDeltaBytes_nil (hasAVX2 : Bool) (prev cur : Pixmap tileSize tileSize)
    (hsize : tileSize ≤ 256)
    (hnil : makeDeltaBytes (.ofPixmap hasAVX2 prev) (.ofPixmap hasAVX2 cur) mode = []) :
    prev.rows = cur.rows := by
  obtain ⟨es, hout, -, hrows⟩ := makeRows_spec hasAVX2 prev cur mode hsize hsize
  have hes : es = [] := by
    simp only [makeDeltaBytes, hout] at hnil
    split at hnil
    · rename_i hempty
      have hle := length_le_flatMap_bytes mode es
      rw [hempty] at hle
      exact List.eq_nil_of_length_eq_zero (Nat.le_zero.mp hle)
    · simp at hnil
  rw [hes] at hrows
  exact hrows

/-- The deltas of pixmaps that follow one another turn the image of the first into that of the
last, wherever they start. -/
theorem updateLoop_deltaBytesOf (hasAVX2 : Bool) (hsize : tileSize ≤ 256)
    (prev : Pixmap tileSize tileSize) (later : List (Pixmap tileSize tileSize))
    {deltas : List UInt8} {offset rounds : Nat}
    (hdeltas : deltas.drop offset = deltaBytesOf hasAVX2 mode prev later)
    (hrounds : deltas.length - offset + 1 ≤ rounds) :
    updateLoop deltas tileSize rounds offset (imageBytes mode prev.rows) =
      some (imageBytes mode (later.getLastD prev).rows) := by
  induction later generalizing prev offset rounds with
  | nil =>
      obtain ⟨rounds, rfl⟩ : ∃ r, rounds = r + 1 := ⟨rounds - 1, by omega⟩
      have hend : ¬ offset < deltas.length := by
        have hlen := congrArg List.length hdeltas
        simp only [List.length_drop, deltaBytesOf, List.length_nil] at hlen
        omega
      rw [updateLoop, if_neg hend]
      rfl
  | cons cur later ih =>
      rw [List.getLastD_cons]
      by_cases hnil : makeDeltaBytes (.ofPixmap hasAVX2 prev) (.ofPixmap hasAVX2 cur) mode = []
      · rw [rows_eq_of_makeDeltaBytes_nil hasAVX2 prev cur hsize hnil]
        apply ih cur _ hrounds
        rw [hdeltas, deltaBytesOf, hnil, List.nil_append]
      · obtain ⟨rounds, rfl⟩ : ∃ r, rounds = r + 1 := ⟨rounds - 1, by omega⟩
        obtain ⟨s, hchunk, himg, hi⟩ := applyDeltaChunk_makeDeltaBytes_append hasAVX2 prev cur
          hsize (deltaBytesOf hasAVX2 mode cur later) hnil
        have hpos := List.length_pos_of_ne_nil hnil
        have hlen := congrArg List.length hdeltas
        simp only [List.length_drop, deltaBytesOf, List.length_append] at hlen
        have hlt : offset < deltas.length := by omega
        rw [updateLoop, if_pos hlt, hdeltas, deltaBytesOf, hchunk, Option.bind_some, himg, hi]
        apply ih cur
        · rw [← List.drop_drop, hdeltas, deltaBytesOf, List.drop_left]
        · omega

theorem updateImageFromDeltas_deltaBytesOf (hasAVX2 : Bool) (hsize : tileSize ≤ 256)
    (prev : Pixmap tileSize tileSize) (later : List (Pixmap tileSize tileSize)) :
    updateImageFromDeltas (imageBytes mode prev.rows) (deltaBytesOf hasAVX2 mode prev later) 0 tileSize =
      some (imageBytes mode (later.getLastD prev).rows) :=
  updateLoop_deltaBytesOf hasAVX2 hsize prev later rfl (by omega)

/-- A keyframe with the deltas after it gives the last pixmap. -/
theorem imageOfKeyframe_deltaBytesOf (hasAVX2 : Bool) (hsize : tileSize ≤ 256)
    (first : Pixmap tileSize tileSize) (later : List (Pixmap tileSize tileSize)) :
    imageOfKeyframe (packRows hasAVX2 mode first.rows ++ deltaBytesOf hasAVX2 mode first later)
        tileSize = some (imageBytes mode (later.getLastD first).rows) := by
  have hbuffer : (List.replicate (tileSize * tileSize * 4) (0 : UInt8)).length =
      first.rows.length * (tileSize * 4) := by
    rw [List.length_replicate, first.rows_length, Nat.mul_assoc]
  have hunrle : unrleRows (packRows hasAVX2 mode first.rows ++ deltaBytesOf hasAVX2 mode first later)
      tileSize 0 first.rows.length 0 0 ([] ++ (List.replicate (tileSize * tileSize * 4) 0 ++ [])) =
        some (0 + (packRows hasAVX2 mode first.rows).length,
          [] ++ (imageBytes mode first.rows ++ [])) :=
    unrleRows_packRows hasAVX2 hsize first.row_length [] rfl (by simp) hbuffer
  simp only [List.nil_append, List.append_nil, Nat.zero_add, first.rows_length] at hunrle
  rw [imageOfKeyframe, unrle, hunrle, Option.bind_some]
  apply updateLoop_deltaBytesOf hasAVX2 hsize first later
  · rw [List.drop_left]
  · omega

end CoolOnline.Browser
