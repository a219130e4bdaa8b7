import Mathlib.Data.List.Basic
import Mathlib.Data.List.Forall2

/-! # Writing into a list from an offset

A buffer that is written one element at a time, as typed arrays are: writes past the end
are dropped. A write that stays inside one row of a buffer made of equal rows changes that
row only.
-/

namespace CoolOnline.ListWrite

variable {α : Type*}

/-- Store the elements one after the other, starting at `offset`. -/
def writeFrom (buffer : List α) (offset : Nat) : List α → List α
  | [] => buffer
  | a :: data => writeFrom (buffer.set offset a) (offset + 1) data

@[simp] theorem writeFrom_length (buffer data : List α) (offset : Nat) :
    (writeFrom buffer offset data).length = buffer.length := by
  induction data generalizing buffer offset with
  | nil => rfl
  | cons a data ih => simp [writeFrom, ih]

/-- A write that fits replaces exactly the segment it covers. -/
theorem writeFrom_segment (before segment after data : List α)
    (hlen : data.length = segment.length) :
    writeFrom (before ++ (segment ++ after)) before.length data = before ++ (data ++ after) := by
  induction data generalizing before segment with
  | nil =>
      have hnil : segment = [] := List.eq_nil_of_length_eq_zero (by simpa using hlen.symm)
      simp [writeFrom, hnil]
  | cons a data ih =>
      cases segment with
      | nil => simp at hlen
      | cons b segment =>
          have hset : (before ++ (b :: segment ++ after)).set before.length a =
              (before ++ [a]) ++ (segment ++ after) := by
            rw [List.set_append_right _ _ (Nat.le_refl _)]
            simp
          have hrec := ih (before ++ [a]) segment (by simpa using hlen)
          rw [writeFrom, hset]
          rw [List.length_append, List.length_singleton] at hrec
          rw [hrec]
          simp

/-- Rows of one length laid out one after the other. -/
def UniformRows (width : Nat) (rows : List (List α)) : Prop := ∀ row ∈ rows, row.length = width

theorem UniformRows.set {width : Nat} {rows : List (List α)} (h : UniformRows width rows)
    (k : Nat) {row : List α} (hrow : row.length = width) : UniformRows width (rows.set k row) := by
  intro r hr
  rcases List.mem_or_eq_of_mem_set hr with hr | rfl
  · exact h r hr
  · exact hrow

theorem UniformRows.getD_length {width : Nat} {rows : List (List α)} (h : UniformRows width rows)
    {k : Nat} (hk : k < rows.length) (default : List α) :
    (rows.getD k default).length = width := by
  rw [List.getD_eq_getElem?_getD, List.getElem?_eq_getElem hk]
  exact h _ (List.getElem_mem hk)

theorem flatten_length_of_uniform {width : Nat} {rows : List (List α)}
    (h : UniformRows width rows) : rows.flatten.length = rows.length * width := by
  induction rows with
  | nil => simp
  | cons row rows ih =>
      have hrow : row.length = width := h row (by simp)
      have hrows := ih fun r hr => h r (by simp [hr])
      rw [List.flatten_cons, List.length_append, hrow, hrows, List.length_cons, Nat.succ_mul,
        Nat.add_comm]

/-- The buffer split around row `k`. -/
theorem flatten_split {rows : List (List α)} {k : Nat} (hk : k < rows.length) :
    rows.flatten = (rows.take k).flatten ++ (rows[k] ++ (rows.drop (k + 1)).flatten) := by
  conv_lhs => rw [← List.take_append_drop k rows, List.drop_eq_getElem_cons hk]
  rw [List.flatten_append, List.flatten_cons]

theorem flatten_take_length {width : Nat} {rows : List (List α)} (h : UniformRows width rows)
    {k : Nat} (hk : k ≤ rows.length) : (rows.take k).flatten.length = k * width := by
  rw [flatten_length_of_uniform fun r hr => h r (List.mem_of_mem_take hr), List.length_take,
    Nat.min_eq_left hk]

theorem flatten_set {rows : List (List α)} {k : Nat} (hk : k < rows.length) (row : List α) :
    (rows.set k row).flatten =
      (rows.take k).flatten ++ (row ++ (rows.drop (k + 1)).flatten) := by
  have hk' : k < (rows.set k row).length := by simpa
  rw [flatten_split hk', List.getElem_set_self, List.take_set_of_le (Nat.le_refl k),
    List.drop_set_of_lt (Nat.lt_succ_self k)]

/-- Reading row `k` back out of the buffer. -/
theorem read_row {width : Nat} {rows : List (List α)} (h : UniformRows width rows) {k : Nat}
    (hk : k < rows.length) (default : α) :
    (List.range width).map (fun j => rows.flatten.getD (k * width + j) default) = rows[k] := by
  have hrow : rows[k].length = width := h _ (List.getElem_mem hk)
  apply List.ext_getElem
  · simp [hrow]
  intro j hj hj'
  have hread : rows.flatten[k * width + j]? = some rows[k][j] := by
    rw [flatten_split hk, List.getElem?_append_right (by
      rw [flatten_take_length h (by omega)]; omega), flatten_take_length h (by omega),
      Nat.add_sub_cancel_left, List.getElem?_append_left hj', List.getElem?_eq_getElem hj']
  simp only [List.getElem_map, List.getElem_range, List.getD_eq_getElem?_getD, hread,
    Option.getD_some]

/-- A write inside row `k`, from column `col` on, is a write into that row. -/
theorem writeFrom_row {width : Nat} {rows : List (List α)} (h : UniformRows width rows)
    {k : Nat} (hk : k < rows.length) (col : Nat) (data : List α)
    (hfit : col + data.length ≤ width) :
    writeFrom rows.flatten (k * width + col) data =
      (rows.set k (rows[k].take col ++ (data ++ rows[k].drop (col + data.length)))).flatten := by
  have hrow : rows[k].length = width := h _ (List.getElem_mem hk)
  have hsplit : rows[k] = rows[k].take col ++
      ((rows[k].drop col).take data.length ++ rows[k].drop (col + data.length)) := by
    rw [← List.drop_drop, List.take_append_drop, List.take_append_drop]
  have hoffset : ((rows.take k).flatten ++ rows[k].take col).length = k * width + col := by
    rw [List.length_append, flatten_take_length h (by omega), List.length_take,
      Nat.min_eq_left (by omega)]
  have hbuffer : rows.flatten = ((rows.take k).flatten ++ rows[k].take col) ++
      ((rows[k].drop col).take data.length ++
        (rows[k].drop (col + data.length) ++ (rows.drop (k + 1)).flatten)) := by
    conv_lhs => rw [flatten_split hk, hsplit]
    simp only [List.append_assoc]
  rw [flatten_set hk, hbuffer, ← hoffset, writeFrom_segment]
  · simp only [List.append_assoc]
  · simp only [List.length_take, List.length_drop]
    omega

/-- A write that covers row `k` replaces it. -/
theorem writeFrom_whole_row {width : Nat} {rows : List (List α)} (h : UniformRows width rows)
    {k : Nat} (hk : k < rows.length) (data : List α) (hdata : data.length = width) :
    writeFrom rows.flatten (k * width) data = (rows.set k data).flatten := by
  have hrow : rows[k].length = width := h _ (List.getElem_mem hk)
  have hwrite := writeFrom_row h hk 0 data (by omega)
  rw [Nat.add_zero, List.take_zero, List.nil_append,
    List.drop_of_length_le (by omega), List.append_nil] at hwrite
  exact hwrite

/-! ## Bringing a list up to date from the front -/

/-- The elements before `k` are the new ones, the others still the old ones. -/
def merged (old new : List α) (k : Nat) : List α := new.take k ++ old.drop k

@[simp] theorem merged_zero (old new : List α) : merged old new 0 = old := by simp [merged]

theorem merged_length_of_eq (old new : List α) (k : Nat) (h : new.length = old.length) :
    (merged old new k).length = old.length := by
  simp only [merged, List.length_append, List.length_take, List.length_drop]
  omega

theorem merged_all (old new : List α) (k : Nat) (hold : old.length ≤ k) (hnew : new.length ≤ k) :
    merged old new k = new := by
  rw [merged, List.take_of_length_le hnew, List.drop_of_length_le hold, List.append_nil]

theorem merged_succ_of_same (old new : List α) (k : Nat) (ho : k < old.length)
    (hn : k < new.length) (h : old[k] = new[k]) : merged old new (k + 1) = merged old new k := by
  rw [merged, merged, List.drop_eq_getElem_cons ho, h, List.take_succ_eq_append_getElem hn,
    List.append_assoc]
  rfl

theorem merged_getElem (old new : List α) (k : Nat) (ho : k < old.length) (hn : k < new.length)
    (hk : k < (merged old new k).length) : (merged old new k)[k] = old[k] := by
  have htake : (new.take k).length = k := by simp; omega
  have hget : (merged old new k)[k]? = some old[k] := by
    rw [merged, List.getElem?_append_right (by omega), htake, Nat.sub_self, List.getElem?_drop,
      Nat.add_zero, List.getElem?_eq_getElem ho]
  rw [List.getElem?_eq_getElem hk] at hget
  exact Option.some.inj hget

theorem merged_set (old new : List α) (k : Nat) (ho : k < old.length) (hn : k < new.length) :
    (merged old new k).set k new[k] = merged old new (k + 1) := by
  have htake : (new.take k).length = k := by simp; omega
  rw [merged, merged, List.set_append_right _ _ (by omega), htake, Nat.sub_self,
    List.drop_eq_getElem_cons ho, List.set_cons_zero, List.take_succ_eq_append_getElem hn,
    List.append_assoc]
  rfl

/-! ## Two lists in step -/

section

variable {β : Type*} {R : α → β → Prop} {l : List α} {l' : List β} {a : α} {b : β} {i : Nat}

theorem forall₂_getElem? (h : List.Forall₂ R l l') (ha : l[i]? = some a) :
    ∃ b, l'[i]? = some b ∧ R a b := by
  induction h generalizing i with
  | nil => cases ha
  | cons hab _ ih =>
      cases i with
      | zero =>
          cases ha
          exact ⟨_, rfl, hab⟩
      | succ i => exact ih ha

theorem forall₂_set (h : List.Forall₂ R l l') (hab : R a b) (i : Nat) :
    List.Forall₂ R (l.set i a) (l'.set i b) := by
  induction h generalizing i with
  | nil => exact .nil
  | cons hhead htail ih =>
      cases i with
      | zero => exact .cons hab htail
      | succ i => exact .cons hhead (ih i)

theorem forall₂_eraseIdx (h : List.Forall₂ R l l') (i : Nat) :
    List.Forall₂ R (l.eraseIdx i) (l'.eraseIdx i) := by
  induction h generalizing i with
  | nil => exact .nil
  | cons hhead htail ih =>
      cases i with
      | zero => exact htail
      | succ i => exact .cons hhead (ih i)

end

/-- The start of a row is taken away. -/
theorem mem_flatten_set {rows : List (List α)} {i : Nat} {done left : List α}
    (h : rows[i]? = some (done ++ left)) (a : α) :
    a ∈ rows.flatten ↔ a ∈ done ∨ a ∈ (rows.set i left).flatten := by
  induction rows generalizing i with
  | nil => cases h
  | cons row rows ih =>
      cases i with
      | zero =>
          cases h
          simp
      | succ i =>
          rw [List.set_cons_succ, List.flatten_cons, List.flatten_cons, List.mem_append,
            List.mem_append, ih h]
          exact or_left_comm

theorem flatten_eraseIdx (rows : List (List α)) (i : Nat) :
    (rows.eraseIdx i).flatten = (rows.set i []).flatten := by
  induction rows generalizing i with
  | nil => rfl
  | cons row rows ih =>
      cases i with
      | zero => rfl
      | succ i => rw [List.eraseIdx_cons_succ, List.set_cons_succ, List.flatten_cons, ih,
          List.flatten_cons]

end CoolOnline.ListWrite
