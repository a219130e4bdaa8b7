import CoolOnline.Kit.DeltaOps

/-! # What `makeDelta` writes

The output of `makeDelta` is the bytes of valid operations that turn the rows of the
previous pixmap into those of the current one. A row that has been handled is never
touched again: the last copy is extended in place only while no operation follows it.
-/

namespace CoolOnline.Delta

open ListWrite Browser

/-! ## One row -/

theorem overwriteRow_merged (old cur : List Pixel) (x n : Nat) (hn : x + n ≤ cur.length) :
    overwriteRow (merged old cur x) x ((cur.drop x).take n) = merged old cur (x + n) := by
  have htake : (cur.take x).length = x := by simp; omega
  have hrun : ((cur.drop x).take n).length = n := by simp; omega
  have hcols : (merged old cur x).take x = cur.take x := by
    rw [merged, List.take_append_of_le_length (by omega), List.take_of_length_le (by omega)]
  have hrest : (merged old cur x).drop (x + n) = old.drop (x + n) := by
    rw [merged, List.drop_append, List.drop_of_length_le (by omega), List.nil_append,
      List.drop_drop, htake, Nat.add_sub_cancel_left]
  rw [overwriteRow, hrun, hcols, hrest, merged, List.take_add, List.append_assoc]

/-- Both iterators of a diff, standing on column `x`. -/
def IteratorsAt (old cur : List Pixel) (x : Nat) (its : PixIterator × PixIterator) : Prop :=
  its.1.At old x ∧ its.2.At cur x

theorem IteratorsAt.intro {old cur : List Pixel} {x : Nat} {it it' : PixIterator}
    (h : it.At old x) (h' : it'.At cur x) : IteratorsAt old cur x (it, it') := ⟨h, h'⟩

theorem IteratorsAt.next {old cur : List Pixel} {x : Nat} {its : PixIterator × PixIterator}
    (h : IteratorsAt old cur x its) (hold : old.length ≤ 256) (hcur : cur.length ≤ 256) :
    IteratorsAt old cur (x + 1) (its.1.next, its.2.next) :=
  ⟨PixIterator.next_at old x _ hold h.1, PixIterator.next_at cur x _ hcur h.2⟩

theorem IteratorsAt.identical_iff {old cur : List Pixel} {x : Nat}
    {its : PixIterator × PixIterator} (h : IteratorsAt old cur x its) (ho : x < old.length)
    (hc : x < cur.length) : its.1.identical its.2 = true ↔ old[x] = cur[x] := by
  rw [PixIterator.identical, beq_iff_eq, PixIterator.at_lastPix old x _ ho h.1,
    PixIterator.at_lastPix cur x _ hc h.2]

theorem diffLoop_progress (left : Nat) (its : PixIterator × PixIterator) (hleft : 0 < left)
    (h : its.1.identical its.2 = false) : 0 < (diffLoop left 0 its.1 its.2).1.length := by
  obtain ⟨left, rfl⟩ : ∃ l, left = l + 1 := ⟨left - 1, by omega⟩
  simp [diffLoop, h]

section Row

variable {old cur : List Pixel} {width : Nat} (hold : old.length = width)
  (hcur : cur.length = width) (hwidth : width ≤ 256)
include hold hcur hwidth

/-- The loop over equal pixels leaves the row as it is and stops on a difference. -/
theorem sameLoop_spec (left x : Nat) (its : PixIterator × PixIterator)
    (hx : x + left = width) (h : IteratorsAt old cur x its) :
    let same := sameLoop left its.1 its.2
    same.1 ≤ left ∧ IteratorsAt old cur (x + same.1) same.2 ∧
      merged old cur (x + same.1) = merged old cur x ∧
      (same.1 < left → same.2.1.identical same.2.2 = false) := by
  induction left generalizing x its with
  | zero => exact ⟨Nat.le_refl 0, h, rfl, fun hlt => absurd hlt (Nat.lt_irrefl 0)⟩
  | succ left ih =>
      have ho : x < old.length := by omega
      have hc : x < cur.length := by omega
      by_cases hid : its.1.identical its.2 = true
      · have hrec := ih (x + 1) (its.1.next, its.2.next) (by omega)
          (h.next (by omega) (by omega))
        dsimp only at hrec
        obtain ⟨hle, hat, hrow, hstop⟩ := hrec
        have hsame := merged_succ_of_same old cur x ho hc ((h.identical_iff ho hc).mp hid)
        simp only [sameLoop, if_pos hid]
        have hadd : ∀ n, x + (n + 1) = x + 1 + n := by omega
        rw [hadd]
        exact ⟨by omega, hat, hrow.trans hsame, fun hlt => hstop (by omega)⟩
      · simp only [sameLoop, if_neg hid]
        exact ⟨Nat.zero_le _, h, rfl, fun _ => by simpa using hid⟩

/-- The scratch buffer holds the next pixels of the current row, at most 254 of them. -/
theorem diffLoop_spec (left diff x : Nat) (its : PixIterator × PixIterator)
    (hx : x + left = width) (hdiff : diff ≤ 254) (h : IteratorsAt old cur x its) :
    let run := diffLoop left diff its.1 its.2
    run.1.length ≤ left ∧ diff + run.1.length ≤ 254 ∧
      run.1 = (cur.drop x).take run.1.length ∧ IteratorsAt old cur (x + run.1.length) run.2 := by
  induction left generalizing diff x its with
  | zero => exact ⟨Nat.le_refl 0, hdiff, rfl, h⟩
  | succ left ih =>
      have hc : x < cur.length := by omega
      by_cases hgo : ((!its.1.identical its.2 || diff < 3) && diff < 254) = true
      · have hlt : diff < 254 := by simp at hgo; omega
        have hrec := ih (diff + 1) (x + 1) (its.1.next, its.2.next)
          (by omega) (by omega) (h.next (by omega) (by omega))
        dsimp only at hrec
        obtain ⟨hle, hcap, hrun, hat⟩ := hrec
        have hpix := PixIterator.at_lastPix cur x its.2 hc h.2
        simp only [diffLoop, if_pos hgo, List.length_cons]
        refine ⟨by omega, by omega, ?_, ?_⟩
        · rw [List.drop_eq_getElem_cons hc, List.take_succ_cons, ← hrun, hpix]
        · rw [show ∀ n, x + (n + 1) = x + 1 + n by omega]
          exact hat
      · simp only [diffLoop, if_neg hgo]
        exact ⟨Nat.zero_le _, hdiff, rfl, h⟩

/-- The runs written for a row, as column and pixels. -/
def runOps (curY : Nat) (runs : List (Nat × List Pixel)) : List EncodedOp :=
  runs.map fun r => .run curY r.1 r.2

/-- A run inside the row whose numbers fit their bytes. -/
def RunFits (width : Nat) (r : Nat × List Pixel) : Prop :=
  r.1 + r.2.length ≤ width ∧ r.1 < 256 ∧ r.2.length < 256

/-- The outer loop writes runs that finish the row, whatever column it starts from. -/
theorem diffRowLoop_spec (mode : TileMode) (curY rounds x : Nat)
    (its : PixIterator × PixIterator) (output : List UInt8) (hx : x ≤ width)
    (hrounds : width ≤ x + rounds) (h : IteratorsAt old cur x its) :
    ∃ runs : List (Nat × List Pixel),
      diffRowLoop mode width curY rounds x its.1 its.2 output =
        output ++ (runOps curY runs).flatMap (EncodedOp.bytes mode) ∧
      (∀ r ∈ runs, RunFits width r) ∧
      runs.foldl (fun row r => overwriteRow row r.1 r.2) (merged old cur x) = cur := by
  have hdone : merged old cur width = cur := by
    rw [merged_all old cur width (by omega) (by omega)]
  induction rounds generalizing x its output with
  | zero =>
      have hend : x = width := by omega
      exact ⟨[], by simp [diffRowLoop, runOps], by simp, by rw [hend]; exact hdone⟩
  | succ rounds ih =>
      by_cases hlt : x < width
      · obtain ⟨hsle, hsat, hsrow, hsstop⟩ :=
          sameLoop_spec hold hcur hwidth (width - x) x its (by omega) h
        generalize hsame : sameLoop (width - x) its.1 its.2 = same at hsle hsat hsrow hsstop
        obtain ⟨hdle, hdcap, hdrun, hdat⟩ :=
          diffLoop_spec hold hcur hwidth (width - (x + same.1)) 0 (x + same.1) same.2
            (by omega) (by omega) hsat
        have hprogress : 0 < same.1 +
            (diffLoop (width - (x + same.1)) 0 same.2.1 same.2.2).1.length := by
          by_cases hzero : same.1 = 0
          · have := diffLoop_progress (width - (x + same.1)) same.2 (by omega)
              (hsstop (by omega))
            omega
          · omega
        generalize hrun : diffLoop (width - (x + same.1)) 0 same.2.1 same.2.2 = run
          at hdle hdcap hdrun hdat hprogress
        obtain ⟨runs, hout, hfits, hrow⟩ := ih (x + same.1 + run.1.length) run.2
          (pushRun mode curY (x + same.1) run.1 output) (by omega) (by omega) hdat
        have hstep : diffRowLoop mode width curY (rounds + 1) x its.1 its.2 output =
            diffRowLoop mode width curY rounds (x + same.1 + run.1.length) run.2.1 run.2.2
              (pushRun mode curY (x + same.1) run.1 output) := by
          rw [diffRowLoop, if_pos hlt]
          dsimp only
          rw [hsame, hrun]
        have hover : overwriteRow (merged old cur x) (x + same.1) run.1 =
            merged old cur (x + same.1 + run.1.length) := by
          have hcopy := overwriteRow_merged old cur (x + same.1) run.1.length (by omega)
          rwa [← hdrun, hsrow] at hcopy
        rw [hstep, hout]
        by_cases hempty : run.1.length > 0
        · refine ⟨(x + same.1, run.1) :: runs, ?_, ?_, ?_⟩
          · simp [pushRun, hempty, runOps, EncodedOp.bytes]
          · intro r hr
            rcases List.mem_cons.mp hr with rfl | hr
            · refine ⟨?_, ?_, ?_⟩ <;> dsimp only <;> omega
            · exact hfits r hr
          · rw [List.foldl_cons, hover]
            exact hrow
        · refine ⟨runs, by simp [pushRun, hempty], hfits, ?_⟩
          have hzero : run.1.length = 0 := by omega
          rw [hzero, Nat.add_zero, hsrow] at hrow
          exact hrow
      · have hend : x = width := by omega
        refine ⟨[], by simp [diffRowLoop, runOps, hend], by simp, ?_⟩
        rw [hend]
        exact hdone

/-- `diffRowTo` writes runs that turn the old row into the new one. -/
theorem diffRowTo_spec (mode : TileMode) (curY : Nat) (output : List UInt8) :
    ∃ runs : List (Nat × List Pixel),
      (initPixRowCpu old).diffRowTo (initPixRowCpu cur) width curY output mode =
        output ++ (runOps curY runs).flatMap (EncodedOp.bytes mode) ∧
      (∀ r ∈ runs, RunFits width r) ∧
      runs.foldl (fun row r => overwriteRow row r.1 r.2) old = cur := by
  have hat : IteratorsAt old cur 0
      (PixIterator.ofRow (initPixRowCpu old), PixIterator.ofRow (initPixRowCpu cur)) :=
    .intro (PixIterator.ofRow_at old (by omega)) (PixIterator.ofRow_at cur (by omega))
  obtain ⟨runs, hout, hfits, hrow⟩ := diffRowLoop_spec hold hcur hwidth mode curY width 0
    (PixIterator.ofRow (initPixRowCpu old), PixIterator.ofRow (initPixRowCpu cur)) output
    (Nat.zero_le _) (by omega) hat
  rw [merged_zero] at hrow
  dsimp only at hout
  exact ⟨runs, by rw [DeltaBitmapRow.diffRowTo, hout], hfits, hrow⟩

end Row

/-! ## All rows -/

/-- A run over a row of the tile changes that row only. -/
theorem foldl_runOps (old rows : List (List Pixel)) (y : Nat) (hy : y < rows.length)
    (runs : List (Nat × List Pixel)) :
    (runOps y runs).foldl (EncodedOp.apply old) rows =
      rows.set y (runs.foldl (fun row r => overwriteRow row r.1 r.2) rows[y]) := by
  induction runs generalizing rows with
  | nil => simp [runOps]
  | cons r runs ih =>
      have hget : rows.getD y [] = rows[y] := by
        rw [List.getD_eq_getElem?_getD, List.getElem?_eq_getElem hy, Option.getD_some]
      have hrec := ih (rows.set y (overwriteRow rows[y] r.1 r.2)) (by simpa)
      simp only [runOps, List.map_cons, List.foldl_cons, EncodedOp.apply, hget] at hrec ⊢
      rw [hrec, List.getElem_set_self, List.set_set]

/-- The operations behind the output of the row loop, when the rows before `k` are done. -/
structure Encodes (mode : TileMode) (width height : Nat) (old cur : List (List Pixel)) (k : Nat)
    (s : MakeState) (es : List EncodedOp) : Prop where
  output_eq : s.output = es.flatMap (EncodedOp.bytes mode)
  valid : ∀ e ∈ es, e.Valid width height
  rows_eq : es.foldl (EncodedOp.apply old) old = merged old cur k
  lastCopy_spec : 0 < s.lastCopy → ∃ before after count src dest,
    es = before ++ .copy count src dest :: after ∧
    s.lastCopy = (before.flatMap (EncodedOp.bytes mode)).length + 1 ∧
    dest + count ≤ k ∧ (dest + count = k → after = [])

/-- Rows that come later leave the record of the last copy as it is. -/
theorem Encodes.lastCopy_mono {mode : TileMode} {width height : Nat}
    {old cur : List (List Pixel)} {k : Nat} {s : MakeState} {es : List EncodedOp}
    (h : Encodes mode width height old cur k s es) (more : List EncodedOp) :
    0 < s.lastCopy → ∃ before after count src dest,
      es ++ more = before ++ .copy count src dest :: after ∧
      s.lastCopy = (before.flatMap (EncodedOp.bytes mode)).length + 1 ∧
      dest + count ≤ k + 1 ∧ (dest + count = k + 1 → after = []) := by
  intro hpos
  obtain ⟨before, after, count, src, dest, hes, hpos, hle, -⟩ := h.lastCopy_spec hpos
  exact ⟨before, after ++ more, count, src, dest, by simp [hes], hpos, by omega, by omega⟩

theorem apply_copy_succ (old rows : List (List Pixel)) (count src dest : Nat) :
    (EncodedOp.copy (count + 1) src dest).apply old rows =
      ((EncodedOp.copy count src dest).apply old rows).set (dest + count)
        (old.getD (src + count) []) := by
  simp only [EncodedOp.apply, List.range_succ, List.foldl_append, List.foldl_cons, List.foldl_nil]

/-- The bytes of the last copy, read back out of the output. -/
theorem lastCopy_bytes {mode : TileMode} {output : List UInt8} {before after : List EncodedOp}
    {count src dest : Nat}
    (h : output = (before ++ .copy count src dest :: after).flatMap (EncodedOp.bytes mode)) :
    let pos := (before.flatMap (EncodedOp.bytes mode)).length + 1
    output.getD pos 0 = UInt8.ofNat count ∧ output.getD (pos + 1) 0 = UInt8.ofNat src ∧
      output.getD (pos + 2) 0 = UInt8.ofNat dest := by
  have hdrop : output.drop (before.flatMap (EncodedOp.bytes mode)).length =
      [99, UInt8.ofNat count, UInt8.ofNat src, UInt8.ofNat dest] ++
        after.flatMap (EncodedOp.bytes mode) := by
    rw [h, List.flatMap_append, List.drop_left]
    rfl
  have h1 := getElem?_of_drop hdrop 1
  have h2 := getElem?_of_drop hdrop 2
  have h3 := getElem?_of_drop hdrop 3
  simp only [List.cons_append, List.getElem?_cons_succ, List.getElem?_cons_zero] at h1 h2 h3
  simp only [List.getD_eq_getElem?_getD, Nat.add_assoc, Nat.reduceAdd, h1, h2, h3,
    Option.getD_some, and_self]

section Rows

variable {mode : TileMode} {width height : Nat} {old cur : List (List Pixel)} {y : Nat}
  {s : MakeState} {es : List EncodedOp}

/-- Incrementing the count byte of the last copy extends it by one row. -/
theorem Encodes.extend (h : Encodes mode width height old cur y s es) (hheight : height ≤ 256)
    (hold : old.length = height) (hcur : cur.length = height) (m : Nat) (hy : y < height)
    (hm : m < height) (hsame : old[m] = cur[y]) (hext : s.canExtend height m y = true) :
    ∃ es', Encodes mode width height old cur (y + 1) (s.pushCopy height m y) es' := by
  have hcanExtend := hext
  simp only [MakeState.canExtend, Bool.and_eq_true, decide_eq_true_eq, beq_iff_eq] at hext
  obtain ⟨⟨⟨hpos, hsrc⟩, hdest⟩, hbound⟩ := hext
  obtain ⟨before, after, count, src, dest, hes, hlast, hle, hafter⟩ := h.lastCopy_spec hpos
  have hvalid := h.valid (.copy count src dest) (by simp [hes])
  obtain ⟨-, hc256, hs256, hd256⟩ := hvalid
  obtain ⟨hb1, hb2, hb3⟩ := lastCopy_bytes (hes ▸ h.output_eq)
  rw [← hlast] at hb1 hb2 hb3
  simp only [MakeState.byte, hb1, hb2, hb3, ofNat_toNat_of_lt hc256, ofNat_toNat_of_lt hs256,
    ofNat_toNat_of_lt hd256] at hsrc hdest hbound
  have hnil : after = [] := hafter hdest
  subst hnil
  refine ⟨before ++ [.copy (count + 1) src dest], ?_, ?_, ?_, ?_⟩
  · have hcount : UInt8.ofNat count + 1 = UInt8.ofNat (count + 1) := by
      rw [UInt8.ofNat_add]
      rfl
    have hout := h.output_eq
    rw [hes, List.flatMap_append] at hout
    rw [MakeState.pushCopy, if_pos hcanExtend, hb1, hcount, hlast, hout,
      List.set_append_right _ _ (by omega), List.flatMap_append]
    simp [EncodedOp.bytes]
  · intro e he
    rcases List.mem_append.mp he with he | he
    · exact h.valid e (by simp [hes, he])
    · obtain rfl := List.mem_singleton.mp he
      refine ⟨⟨?_, ?_⟩, ?_, hs256, hd256⟩ <;> omega
  · have hrows := h.rows_eq
    rw [hes, List.foldl_append, List.foldl_cons, List.foldl_nil] at hrows
    have hrow : old.getD (src + count) [] = cur[y] := by
      rw [hsrc, List.getD_eq_getElem?_getD, List.getElem?_eq_getElem (by omega), Option.getD_some,
        hsame]
    rw [List.foldl_append, List.foldl_cons, List.foldl_nil, apply_copy_succ, hrows, hdest, hrow,
      merged_set old cur y (by omega) (by omega)]
  · intro _
    refine ⟨before, [], count + 1, src, dest, rfl, ?_, by omega, fun _ => rfl⟩
    simp only [MakeState.pushCopy, if_pos hcanExtend, hlast]

theorem Encodes.pushCopy (h : Encodes mode width height old cur y s es) (hheight : height ≤ 256)
    (hold : old.length = height) (hcur : cur.length = height) (m : Nat) (hy : y < height)
    (hm : m < height) (hsame : old[m] = cur[y]) :
    ∃ es', Encodes mode width height old cur (y + 1) (s.pushCopy height m y) es' := by
  by_cases hext : s.canExtend height m y = true
  · exact h.extend hheight hold hcur m hy hm hsame hext
  · refine ⟨es ++ [.copy 1 m y], ?_, ?_, ?_, ?_⟩
    · simp [MakeState.pushCopy, hext, h.output_eq, EncodedOp.bytes]
    · intro e he
      rcases List.mem_append.mp he with he | he
      · exact h.valid e he
      · obtain rfl := List.mem_singleton.mp he
        refine ⟨⟨?_, ?_⟩, ?_, ?_, ?_⟩ <;> omega
    · have hrow : old.getD (m + 0) [] = cur[y] := by
        rw [Nat.add_zero, List.getD_eq_getElem?_getD, List.getElem?_eq_getElem (by omega),
          Option.getD_some, hsame]
      rw [List.foldl_append, h.rows_eq, List.foldl_cons, List.foldl_nil, apply_copy_succ, hrow,
        Nat.add_zero]
      exact merged_set old cur y (by omega) (by omega)
    · intro _
      refine ⟨es, [], 1, m, y, rfl, ?_, by omega, fun _ => rfl⟩
      simp [MakeState.pushCopy, hext, h.output_eq]

theorem Encodes.skip (h : Encodes mode width height old cur y s es)
    (hold : old.length = height) (hcur : cur.length = height) (hy : y < height)
    (hsame : old[y] = cur[y]) : Encodes mode width height old cur (y + 1) s es where
  output_eq := h.output_eq
  valid := h.valid
  rows_eq := by
    rw [h.rows_eq, merged_succ_of_same old cur y (by omega) (by omega) hsame]
  lastCopy_spec := by simpa using h.lastCopy_mono []

theorem Encodes.diffRow (h : Encodes mode width height old cur y s es) (hwidth : width ≤ 256)
    (hheight : height ≤ 256) (hold : old.length = height) (hcur : cur.length = height)
    (hy : y < height) (hrow : old[y].length = width) (hrow' : cur[y].length = width) :
    ∃ es', Encodes mode width height old cur (y + 1)
      { s with
        output := (initPixRowCpu old[y]).diffRowTo (initPixRowCpu cur[y]) width y s.output mode }
      es' := by
  obtain ⟨runs, hout, hfits, hruns⟩ := diffRowTo_spec hrow hrow' hwidth mode y s.output
  have hmerged : (merged old cur y).length = height := by
    rw [merged_length_of_eq old cur y (by omega), hold]
  refine ⟨es ++ runOps y runs, ?_, ?_, ?_, h.lastCopy_mono _⟩
  · rw [hout, h.output_eq, List.flatMap_append]
  · intro e he
    rcases List.mem_append.mp he with he | he
    · exact h.valid e he
    · obtain ⟨r, hr, rfl⟩ := List.mem_map.mp he
      obtain ⟨hfit, hcol, hlen⟩ := hfits r hr
      exact ⟨⟨hy, hfit⟩, by omega, hcol, hlen⟩
  · rw [List.foldl_append, h.rows_eq, foldl_runOps old _ y (by omega),
      merged_getElem old cur y (by omega) (by omega), hruns]
    exact merged_set old cur y (by omega) (by omega)

end Rows

/-! ## The whole tile -/

theorem findMatch_spec (prev cur : DeltaData) (y lastMatchOffset : Nat) (yns : List Nat)
    (hheight : 0 < prev.height) (m : Nat)
    (h : findMatch prev cur y lastMatchOffset yns = some m) :
    m < prev.height ∧ (prev.getRow m).identical (cur.getRow y) = true := by
  induction yns with
  | nil => simp [findMatch] at h
  | cons yn later ih =>
      rw [findMatch] at h
      split at h
      · next hid =>
          obtain rfl := Option.some.inj h
          exact ⟨Nat.mod_lt _ hheight, hid⟩
      · exact ih h

section Tile

variable {width height : Nat} (hasAVX2 : Bool) (prev cur : Pixmap width height) (mode : TileMode)

theorem Pixmap.rows_getElem_length (pixmap : Pixmap width height) (y : Nat)
    (hy : y < pixmap.rows.length) : pixmap.rows[y].length = width :=
  pixmap.row_length _ (List.getElem_mem hy)

theorem getRow_ofPixmap (pixmap : Pixmap width height) (y : Nat) (hy : y < pixmap.rows.length) :
    (DeltaData.ofPixmap hasAVX2 pixmap).getRow y = initPixRowCpu pixmap.rows[y] := by
  simp [DeltaData.getRow, DeltaData.ofPixmap, List.getD_eq_getElem?_getD, hy, initRow_eq]

/-- Compressed rows are compared by their pixels. -/
theorem getRow_identical_iff (hwidth : width ≤ 256) (m y : Nat) (hm : m < prev.rows.length)
    (hy : y < cur.rows.length) :
    ((DeltaData.ofPixmap hasAVX2 prev).getRow m).identical
      ((DeltaData.ofPixmap hasAVX2 cur).getRow y) = true ↔ prev.rows[m] = cur.rows[y] := by
  have hm' := prev.rows_getElem_length m hm
  have hy' := cur.rows_getElem_length y hy
  rw [getRow_ofPixmap, getRow_ofPixmap, DeltaBitmapRow.identical_iff]
  constructor
  · exact initPixRowCpu_injective _ _ (by omega) (by omega)
  · intro h
    rw [h]

theorem makeRow_encodes (hwidth : width ≤ 256) (hheight : height ≤ 256) (y : Nat)
    (hy : y < height) (s : MakeState) (es : List EncodedOp)
    (h : Encodes mode width height prev.rows cur.rows y s es) :
    ∃ es', Encodes mode width height prev.rows cur.rows (y + 1)
      (makeRow (.ofPixmap hasAVX2 prev) (.ofPixmap hasAVX2 cur) mode s y) es' := by
  have hprev := prev.rows_length
  have hcur := cur.rows_length
  have hyp : y < prev.rows.length := by omega
  have hyc : y < cur.rows.length := by omega
  unfold makeRow
  split
  · next hid =>
      have hsame := (getRow_identical_iff hasAVX2 prev cur hwidth y y hyp hyc).mp hid
      exact ⟨es, h.skip hprev hcur hy hsame⟩
  · split
    · next m hmatch =>
        obtain ⟨hm, hid⟩ := findMatch_spec _ _ _ _ _
          (by simp only [DeltaData.ofPixmap]; omega) m hmatch
        have hm' : m < height := hm
        have hsame := (getRow_identical_iff hasAVX2 prev cur hwidth m y (by omega) hyc).mp hid
        exact h.pushCopy hheight hprev hcur m hy hm' hsame
    · rw [getRow_ofPixmap _ _ _ hyp, getRow_ofPixmap _ _ _ hyc]
      exact h.diffRow hwidth hheight hprev hcur hy (prev.rows_getElem_length y hyp)
        (cur.rows_getElem_length y hyc)

theorem makeRows_encodes (hwidth : width ≤ 256) (hheight : height ≤ 256) (k : Nat)
    (hk : k ≤ height) :
    ∃ es, Encodes mode width height prev.rows cur.rows k
      ((List.range k).foldl (makeRow (.ofPixmap hasAVX2 prev) (.ofPixmap hasAVX2 cur) mode)
        ⟨0, 0, []⟩) es := by
  induction k with
  | zero => exact ⟨[], rfl, by simp, by simp, fun h => absurd h (Nat.lt_irrefl 0)⟩
  | succ k ih =>
      obtain ⟨es, hes⟩ := ih (by omega)
      rw [List.range_succ, List.foldl_append, List.foldl_cons, List.foldl_nil]
      exact makeRow_encodes hasAVX2 prev cur mode hwidth hheight k (by omega) _ es hes

/-- The output of the row loop is the bytes of valid operations that rebuild the tile. -/
theorem makeRows_spec (hwidth : width ≤ 256) (hheight : height ≤ 256) :
    ∃ es : List EncodedOp,
      makeRows (.ofPixmap hasAVX2 prev) (.ofPixmap hasAVX2 cur) mode =
        es.flatMap (EncodedOp.bytes mode) ∧
      (∀ e ∈ es, e.Valid width height) ∧
      es.foldl (EncodedOp.apply prev.rows) prev.rows = cur.rows := by
  obtain ⟨es, hes⟩ := makeRows_encodes hasAVX2 prev cur mode hwidth hheight height (Nat.le_refl _)
  refine ⟨es, hes.output_eq, hes.valid, ?_⟩
  have hprev := prev.rows_length
  have hcur := cur.rows_length
  rw [hes.rows_eq, merged_all _ _ _ (by omega) (by omega)]

end Tile

end CoolOnline.Delta
