import CoolOnline.Kit.Delta
import CoolOnline.Browser.CanvasTileUtils

/-! # Operations of a delta

A delta as a list of row copies and pixel runs, with their bytes and their effect on the
rows of a tile. `applyDeltaChunk` executes exactly the operations whose bytes it is given.
-/

namespace CoolOnline.Delta

open ListWrite Browser

/-- An operation of a delta with the pixels it carries. -/
inductive EncodedOp
  | copy (count srcRow destRow : Nat)
  | run (destRow destCol : Nat) (pixels : List Pixel)

def EncodedOp.bytes (mode : TileMode) : EncodedOp → List UInt8
  | .copy count srcRow destRow =>
      [99, UInt8.ofNat count, UInt8.ofNat srcRow, UInt8.ofNat destRow]
  | .run destRow destCol pixels =>
      [100, UInt8.ofNat destRow, UInt8.ofNat destCol, UInt8.ofNat pixels.length] ++
        rowBytes mode pixels

def EncodedOp.op : EncodedOp → DeltaOp
  | .copy count srcRow destRow => .copyRow count srcRow destRow
  | .run destRow destCol pixels => .newRun destRow destCol pixels.length

/-- Put a run of pixels over a row. -/
def overwriteRow (row : List Pixel) (col : Nat) (pixels : List Pixel) : List Pixel :=
  row.take col ++ (pixels ++ row.drop (col + pixels.length))

/-- The effect of an operation on the rows of a tile. -/
def EncodedOp.apply (old : List (List Pixel)) (rows : List (List Pixel)) :
    EncodedOp → List (List Pixel)
  | .copy count srcRow destRow =>
      (List.range count).foldl (fun img k => img.set (destRow + k) (old.getD (srcRow + k) [])) rows
  | .run destRow destCol pixels =>
      rows.set destRow (overwriteRow (rows.getD destRow []) destCol pixels)

/-- The operation stays inside the tile and its numbers fit the bytes they are written in. -/
def EncodedOp.Valid (width height : Nat) (e : EncodedOp) : Prop :=
  e.op.InBounds width height ∧
    match e with
    | .copy count srcRow destRow => count < 256 ∧ srcRow < 256 ∧ destRow < 256
    | .run destRow destCol pixels => destRow < 256 ∧ destCol < 256 ∧ pixels.length < 256

/-! ## Bytes of rows -/

/-- The bytes of one pixel after `copy_row`. -/
def pixelBytes : TileMode → Pixel → List UInt8
  | .rgba, p => [p.r, p.g, p.b, p.a]
  | .bgra, p => [p.b, p.g, p.r, p.a]

theorem rowBytes_eq (mode : TileMode) (pixels : List Pixel) :
    rowBytes mode pixels = pixels.flatMap (pixelBytes mode) := by
  cases mode with
  | rgba => rfl
  | bgra =>
      induction pixels with
      | nil => rfl
      | cons p pixels ih =>
          have hcons : rowBytes .bgra (p :: pixels) = pixelBytes .bgra p ++ rowBytes .bgra pixels := rfl
          rw [hcons, ih, List.flatMap_cons]

theorem rowBytes_append (mode : TileMode) (xs ys : List Pixel) :
    rowBytes mode (xs ++ ys) = rowBytes mode xs ++ rowBytes mode ys := by
  simp only [rowBytes_eq, List.flatMap_append]

@[simp] theorem rowBytes_length (mode : TileMode) (pixels : List Pixel) :
    (rowBytes mode pixels).length = pixels.length * 4 := by
  rw [rowBytes_eq]
  induction pixels with
  | nil => rfl
  | cons p pixels ih =>
      have hp : (pixelBytes mode p).length = 4 := by cases mode <;> rfl
      rw [List.flatMap_cons, List.length_append, ih, hp, List.length_cons]
      omega

theorem rowBytes_take (mode : TileMode) (pixels : List Pixel) (n : Nat) :
    (rowBytes mode pixels).take (n * 4) = rowBytes mode (pixels.take n) := by
  by_cases hn : n ≤ pixels.length
  · have htake : (rowBytes mode (pixels.take n)).length = n * 4 := by simp; omega
    conv_lhs => rw [← List.take_append_drop n pixels, rowBytes_append, ← htake]
    rw [List.take_left]
  · rw [List.take_of_length_le (by rw [rowBytes_length]; omega), List.take_of_length_le (by omega)]

theorem rowBytes_drop (mode : TileMode) (pixels : List Pixel) (n : Nat) :
    (rowBytes mode pixels).drop (n * 4) = rowBytes mode (pixels.drop n) := by
  by_cases hn : n ≤ pixels.length
  · have htake : (rowBytes mode (pixels.take n)).length = n * 4 := by simp; omega
    conv_lhs => rw [← List.take_append_drop n pixels, rowBytes_append, ← htake]
    rw [List.drop_left]
  · rw [List.drop_of_length_le (by rw [rowBytes_length]; omega), List.drop_of_length_le (by omega),
      rowBytes_eq, List.flatMap_nil]

theorem rowBytes_overwrite (mode : TileMode) (row : List Pixel) (col : Nat)
    (pixels : List Pixel) :
    rowBytes mode (overwriteRow row col pixels) =
      (rowBytes mode row).take (col * 4) ++ (rowBytes mode pixels ++
        (rowBytes mode row).drop (col * 4 + (rowBytes mode pixels).length)) := by
  have hlen : col * 4 + (rowBytes mode pixels).length = (col + pixels.length) * 4 := by
    simp
    omega
  rw [hlen, rowBytes_take, rowBytes_drop, overwriteRow, rowBytes_append, rowBytes_append]

/-- The image buffer of a tile. -/
def imageBytes (mode : TileMode) (rows : List (List Pixel)) : List UInt8 :=
  (rows.map (rowBytes mode)).flatten

theorem uniform_rowBytes (mode : TileMode) {width : Nat} {rows : List (List Pixel)}
    (h : UniformRows width rows) : UniformRows (width * 4) (rows.map (rowBytes mode)) := by
  intro row hrow
  obtain ⟨pixels, hpixels, rfl⟩ := List.mem_map.mp hrow
  rw [rowBytes_length, h pixels hpixels]

theorem overwriteRow_length (row : List Pixel) (col : Nat) (pixels : List Pixel)
    (hfit : col + pixels.length ≤ row.length) : (overwriteRow row col pixels).length = row.length := by
  simp only [overwriteRow, List.length_append, List.length_take, List.length_drop]
  omega

/-! ## Executing one operation -/

theorem copyRows_image (mode : TileMode) {width : Nat} {old : List (List Pixel)}
    (hold : UniformRows width old) (srcRow destRow count : Nat) {rows : List (List Pixel)}
    (hrows : UniformRows width rows) (hsrc : srcRow + count ≤ old.length)
    (hdest : destRow + count ≤ rows.length) :
    copyRows (imageBytes mode old) width srcRow destRow count (imageBytes mode rows) =
      imageBytes mode ((EncodedOp.copy count srcRow destRow).apply old rows) ∧
    UniformRows width ((EncodedOp.copy count srcRow destRow).apply old rows) ∧
    ((EncodedOp.copy count srcRow destRow).apply old rows).length = rows.length := by
  induction count with
  | zero => exact ⟨rfl, hrows, rfl⟩
  | succ count ih =>
      obtain ⟨himg, huni, hlen⟩ := ih (by omega) (by omega)
      have hs : srcRow + count < old.length := by omega
      have hd : destRow + count < ((EncodedOp.copy count srcRow destRow).apply old rows).length := by
        omega
      have happly : (EncodedOp.copy (count + 1) srcRow destRow).apply old rows =
          ((EncodedOp.copy count srcRow destRow).apply old rows).set (destRow + count)
            (old.getD (srcRow + count) []) := by
        simp only [EncodedOp.apply, List.range_succ, List.foldl_append, List.foldl_cons,
          List.foldl_nil]
      have hrow : (old.getD (srcRow + count) []).length = width := hold.getD_length hs []
      have hread : (List.range (width * 4)).map (fun j =>
          (imageBytes mode old).getD ((srcRow + count) * (width * 4) + j) 0) =
          rowBytes mode (old.getD (srcRow + count) []) := by
        have h := read_row (uniform_rowBytes mode hold) (k := srcRow + count) (by simpa) 0
        rw [imageBytes, h, List.getElem_map, List.getD_eq_getElem?_getD,
          List.getElem?_eq_getElem hs, Option.getD_some]
      have hwrite := writeFrom_whole_row (uniform_rowBytes mode huni) (k := destRow + count)
        (by simpa) (rowBytes mode (old.getD (srcRow + count) [])) (by rw [rowBytes_length, hrow])
      refine ⟨?_, ?_, ?_⟩
      · rw [copyRows, List.range_succ, List.foldl_append, ← copyRows, himg, happly]
        simp only [List.foldl_cons, List.foldl_nil, hread]
        rw [imageBytes, imageBytes, List.map_set, hwrite]
      · rw [happly]
        exact huni.set _ hrow
      · rw [happly, List.length_set, hlen]

theorem run_image (mode : TileMode) {width : Nat} (old : List (List Pixel))
    {rows : List (List Pixel)}
    (hrows : UniformRows width rows) (destRow destCol : Nat) (pixels : List Pixel)
    (hrow : destRow < rows.length) (hfit : destCol + pixels.length ≤ width) :
    writeFrom (imageBytes mode rows) (destRow * (width * 4) + destCol * 4) (rowBytes mode pixels) =
      imageBytes mode ((EncodedOp.run destRow destCol pixels).apply old rows) ∧
    UniformRows width ((EncodedOp.run destRow destCol pixels).apply old rows) ∧
    ((EncodedOp.run destRow destCol pixels).apply old rows).length = rows.length := by
  have hlen : rows[destRow].length = width := hrows _ (List.getElem_mem hrow)
  have hget : rows.getD destRow [] = rows[destRow] := by
    rw [List.getD_eq_getElem?_getD, List.getElem?_eq_getElem hrow, Option.getD_some]
  have hwrite := writeFrom_row (uniform_rowBytes mode hrows) (k := destRow) (by simpa)
    (destCol * 4) (rowBytes mode pixels) (by rw [rowBytes_length]; omega)
  refine ⟨?_, ?_, ?_⟩
  · rw [imageBytes, hwrite, List.getElem_map, ← rowBytes_overwrite]
    simp only [EncodedOp.apply, imageBytes, List.map_set, hget]
  · simp only [EncodedOp.apply, hget]
    exact hrows.set _ ((overwriteRow_length _ _ _ (by omega)).trans hlen)
  · simp only [EncodedOp.apply, List.length_set]

theorem getElem?_of_drop {α : Type*} {xs ys : List α} {i : Nat} (h : xs.drop i = ys) (k : Nat) :
    xs[i + k]? = ys[k]? := by
  rw [← h, List.getElem?_drop]

theorem ofNat_toNat_of_lt {n : Nat} (h : n < 256) : (UInt8.ofNat n).toNat = n := by
  rw [UInt8.toNat_ofNat']
  exact Nat.mod_eq_of_lt h

/-- The loop of `applyDeltaChunk` executes one encoded operation. -/
theorem chunkStep_op (mode : TileMode) {width height : Nat} {old rows : List (List Pixel)}
    (hold : UniformRows width old) (hrows : UniformRows width rows) (holdlen : old.length = height)
    (hrowslen : rows.length = height) (e : EncodedOp) (he : e.Valid width height)
    (delta rest : List UInt8) (i : Nat) (ops : List DeltaOp)
    (hdelta : delta.drop i = e.bytes mode ++ rest) :
    chunkStep delta (imageBytes mode old) width ⟨imageBytes mode rows, i, false, ops⟩ =
      some ⟨imageBytes mode (e.apply old rows), i + (e.bytes mode).length, false, ops ++ [e.op]⟩ ∧
    UniformRows width (e.apply old rows) ∧ (e.apply old rows).length = height := by
  have hbyte := fun k => getElem?_of_drop hdelta k
  have h0 := hbyte 0
  have h1 := hbyte 1
  have h2 := hbyte 2
  have h3 := hbyte 3
  cases e with
  | copy count srcRow destRow =>
      obtain ⟨⟨hsrc, hdest⟩, hc, hs, hd⟩ := he
      obtain ⟨himg, huni, hlen⟩ := copyRows_image mode hold srcRow destRow count hrows
        (by omega) (by omega)
      refine ⟨?_, huni, by omega⟩
      simp only [EncodedOp.bytes, Nat.add_zero, List.cons_append, List.getElem?_cons_zero,
        List.getElem?_cons_succ] at h0 h1 h2 h3
      simp only [chunkStep, h0, h1, h2, h3, ofNat_toNat_of_lt hc, ofNat_toNat_of_lt hs,
        ofNat_toNat_of_lt hd, himg]
      rfl
  | run destRow destCol pixels =>
      obtain ⟨⟨hrow, hfit⟩, hr, hc, hp⟩ := he
      obtain ⟨himg, huni, hlen⟩ := run_image mode old hrows destRow destCol pixels
        (by omega) hfit
      refine ⟨?_, huni, by omega⟩
      simp only [EncodedOp.bytes, Nat.add_zero, List.cons_append, List.getElem?_cons_zero,
        List.getElem?_cons_succ] at h0 h1 h2 h3
      have hdata : (List.range (pixels.length * 4)).map (fun j => delta.getD (i + 4 + j) 0) =
          rowBytes mode pixels := by
        apply List.ext_getElem
        · simp
        intro j hj hj'
        have hk := hbyte (4 + j)
        simp only [EncodedOp.bytes, List.cons_append, List.nil_append] at hk
        rw [show 4 + j = j + 1 + 1 + 1 + 1 by omega] at hk
        simp only [List.getElem?_cons_succ] at hk
        rw [List.getElem?_append_left hj', List.getElem?_eq_getElem hj'] at hk
        rw [List.getElem_map, List.getElem_range, List.getD_eq_getElem?_getD,
          show i + 4 + j = i + (j + 1 + 1 + 1 + 1) by omega, hk, Option.getD_some]
      simp only [chunkStep, h0, h1, h2, h3, ofNat_toNat_of_lt hr, ofNat_toNat_of_lt hc,
        ofNat_toNat_of_lt hp, hdata, himg]
      simp [EncodedOp.bytes, EncodedOp.op]
      omega

/-- A whole run of the loop: it executes the operations in order and stops at the `'t'`, whatever
comes after. -/
theorem deltaLoop_ops_append (mode : TileMode) {width height : Nat} {old : List (List Pixel)}
    (hold : UniformRows width old) (holdlen : old.length = height) (es : List EncodedOp)
    (hes : ∀ e ∈ es, e.Valid width height) {rows : List (List Pixel)}
    (hrows : UniformRows width rows) (hrowslen : rows.length = height)
    (delta rest : List UInt8) (i turns : Nat) (ops : List DeltaOp)
    (hdelta : delta.drop i = es.flatMap (EncodedOp.bytes mode) ++ 116 :: rest)
    (hturns : es.length + 2 ≤ turns) :
    deltaLoop delta (imageBytes mode old) width turns ⟨imageBytes mode rows, i, false, ops⟩ =
      some ⟨imageBytes mode (es.foldl (EncodedOp.apply old) rows),
        i + (es.flatMap (EncodedOp.bytes mode)).length + 1, true, ops ++ es.map EncodedOp.op⟩ := by
  induction es generalizing rows i turns ops with
  | nil =>
      obtain ⟨turns, rfl⟩ : ∃ t, turns = t + 2 := ⟨turns - 2, by simp at hturns; omega⟩
      have h0 : delta[i]? = some 116 := by simpa using getElem?_of_drop hdelta 0
      have hlt : i < delta.length := (List.getElem?_eq_some_iff.mp h0).1
      have hstep : chunkStep delta (imageBytes mode old) width
          ⟨imageBytes mode rows, i, false, ops⟩ = some ⟨imageBytes mode rows, i + 1, true, ops⟩ := by
        simp only [chunkStep, h0]
      rw [deltaLoop, if_pos ⟨hlt, rfl⟩, hstep]
      simp [deltaLoop]
  | cons e es ih =>
      obtain ⟨turns, rfl⟩ : ∃ t, turns = t + 1 := ⟨turns - 1, by simp at hturns; omega⟩
      rw [List.flatMap_cons, List.append_assoc] at hdelta
      have hlt : i < delta.length := by
        have hlen := congrArg List.length hdelta
        simp only [List.length_drop, List.length_append, List.length_cons] at hlen
        omega
      obtain ⟨hstep, huni, hlen⟩ := chunkStep_op mode hold hrows holdlen hrowslen e
        (hes e (by simp)) delta _ i ops hdelta
      have hrest : delta.drop (i + (e.bytes mode).length) =
          es.flatMap (EncodedOp.bytes mode) ++ 116 :: rest := by
        rw [← List.drop_drop, hdelta, List.drop_left]
      have hrec := ih (fun e' he' => hes e' (by simp [he'])) huni hlen
        (i + (e.bytes mode).length) turns (ops ++ [e.op]) hrest (by simp at hturns; omega)
      rw [deltaLoop, if_pos ⟨hlt, rfl⟩, hstep, Option.bind_some, hrec]
      simp [Nat.add_assoc]

/-- The loop over one delta ends with it. -/
theorem deltaLoop_ops (mode : TileMode) {width height : Nat} {old : List (List Pixel)}
    (hold : UniformRows width old) (holdlen : old.length = height) (es : List EncodedOp)
    (hes : ∀ e ∈ es, e.Valid width height) {rows : List (List Pixel)}
    (hrows : UniformRows width rows) (hrowslen : rows.length = height)
    (delta : List UInt8) (i turns : Nat) (ops : List DeltaOp)
    (hdelta : delta.drop i = es.flatMap (EncodedOp.bytes mode) ++ [116])
    (hturns : es.length + 2 ≤ turns) :
    deltaLoop delta (imageBytes mode old) width turns ⟨imageBytes mode rows, i, false, ops⟩ =
      some ⟨imageBytes mode (es.foldl (EncodedOp.apply old) rows), delta.length, true,
        ops ++ es.map EncodedOp.op⟩ := by
  have hlength : delta.length = i + (es.flatMap (EncodedOp.bytes mode)).length + 1 := by
    have hlen := congrArg List.length hdelta
    simp only [List.length_drop, List.length_append, List.length_singleton] at hlen
    omega
  rw [hlength]
  exact deltaLoop_ops_append mode hold holdlen es hes hrows hrowslen delta [] i turns ops hdelta
    hturns

end CoolOnline.Delta
