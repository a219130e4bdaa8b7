import Mathlib.Data.List.Basic

/-! # Numbered logs

A log of blocks of data, each with a number, and a reader that knows the number of the last block
it has seen.
-/

namespace CoolOnline.NumberedLog

variable {α : Type*}

/-- All the data of a log. -/
def contents (log : List (Nat × List α)) : List α := log.flatMap fun block => block.2

/-- What a reader of the blocks up to number `n` has. -/
def upTo (log : List (Nat × List α)) (n : Nat) : List α :=
  contents (log.filter fun block => block.1 ≤ n)

/-- What a reader of the blocks up to number `n` lacks. -/
def since (log : List (Nat × List α)) (n : Nat) : List α :=
  contents (log.filter fun block => n < block.1)

/-- Each block has a larger number than the blocks before it. -/
def Increasing (log : List (Nat × List α)) : Prop :=
  log.Pairwise fun older newer => older.1 < newer.1

variable {log : List (Nat × List α)} {n number : Nat} {block : List α}

@[simp] theorem contents_nil : contents ([] : List (Nat × List α)) = [] := rfl

@[simp] theorem contents_cons (b : Nat × List α) : contents (b :: log) = b.2 ++ contents log := rfl

@[simp] theorem contents_append (older newer : List (Nat × List α)) :
    contents (older ++ newer) = contents older ++ contents newer :=
  List.flatMap_append

theorem since_eq_contents (h : ∀ b ∈ log, n < b.1) : since log n = contents log := by
  have hall : log.filter (fun b => decide (n < b.1)) = log := by simpa using h
  rw [since, hall]

theorem since_eq_nil (h : ∀ b ∈ log, b.1 ≤ n) : since log n = [] := by
  have hnone : log.filter (fun b => decide (n < b.1)) = [] := by simpa using h
  rw [since, hnone, contents_nil]

theorem upTo_eq_contents (h : ∀ b ∈ log, b.1 ≤ n) : upTo log n = contents log := by
  have hall : log.filter (fun b => decide (b.1 ≤ n)) = log := by simpa using h
  rw [upTo, hall]

/-- A reader that gets what it lacks has everything. -/
theorem upTo_append_since (h : Increasing log) (n : Nat) :
    upTo log n ++ since log n = contents log := by
  induction log with
  | nil => rfl
  | cons b log ih =>
      obtain ⟨hnewer, hlog⟩ := List.pairwise_cons.mp h
      by_cases hb : b.1 ≤ n
      · have hseen : ¬ n < b.1 := by omega
        have hrest := ih hlog
        simp only [upTo, since, List.filter_cons, hb, hseen, decide_true, decide_false, if_true,
          Bool.false_eq_true, if_false, contents_cons, List.append_assoc] at hrest ⊢
        rw [hrest]
      · have hunseen : ∀ newer ∈ b :: log, n < newer.1 := by
          intro newer hmem
          rcases List.mem_cons.mp hmem with rfl | hmem
          · omega
          · have hlt := hnewer newer hmem
            omega
        have hnone : (b :: log).filter (fun b => decide (b.1 ≤ n)) = [] := by
          simpa using hunseen
        rw [since_eq_contents hunseen, upTo, hnone, contents_nil, List.nil_append]

/-- A reader has the first blocks and lacks the others. -/
theorem Increasing.exists_split (h : Increasing log) (n : Nat) :
    ∃ k, log.filter (fun b => b.1 ≤ n) = log.take k ∧ log.filter (fun b => n < b.1) = log.drop k := by
  induction log with
  | nil => exact ⟨0, rfl, rfl⟩
  | cons b log ih =>
      obtain ⟨hnewer, hlog⟩ := List.pairwise_cons.mp h
      by_cases hb : b.1 ≤ n
      · obtain ⟨k, htake, hdrop⟩ := ih hlog
        have hseen : ¬ n < b.1 := by omega
        refine ⟨k + 1, ?_, ?_⟩
        · simp [hb, htake]
        · simp [hseen, hdrop]
      · refine ⟨0, ?_, ?_⟩
        · simp only [List.take_zero, List.filter_eq_nil_iff, decide_eq_true_eq]
          intro newer hmem
          rcases List.mem_cons.mp hmem with rfl | hmem
          · exact hb
          · have hlt := hnewer newer hmem
            omega
        · simp only [List.drop_zero, List.filter_eq_self, decide_eq_true_eq]
          intro newer hmem
          rcases List.mem_cons.mp hmem with rfl | hmem
          · omega
          · have hlt := hnewer newer hmem
            omega

/-- A reader lacks the blocks that are added, on top of what it lacked. -/
theorem since_append_of_lt (h : n < number) :
    since (log ++ [(number, block)]) n = since log n ++ block := by
  simp [since, List.filter_append, h]

/-- What a reader has stays the same. -/
theorem upTo_append_of_lt (h : n < number) : upTo (log ++ [(number, block)]) n = upTo log n := by
  have hnot : ¬ number ≤ n := by omega
  simp [upTo, List.filter_append, hnot]

theorem Increasing.append (h : Increasing log) (hnew : ∀ b ∈ log, b.1 < number) :
    Increasing (log ++ [(number, block)]) := by
  apply List.pairwise_append.mpr
  refine ⟨h, List.pairwise_singleton _ _, ?_⟩
  intro older holder newer hnewer
  rw [List.mem_singleton.mp hnewer]
  exact hnew older holder

/-! ## Where the blocks lie -/

/-- The place of the first block that a reader lacks, in the listed places of the blocks, or the
end. -/
def place (numbers places : List Nat) (n atEnd : Nat) : Nat :=
  places.getD (numbers.findIdx fun number => n < number) atEnd

theorem place_append {numbers places : List Nat} (hlength : places.length = numbers.length)
    (number here atEnd : Nat) :
    place (numbers ++ [number]) (places ++ [here]) n atEnd =
      place numbers places n (if n < number then here else atEnd) := by
  induction numbers generalizing places with
  | nil =>
      obtain rfl := List.length_eq_zero_iff.mp hlength
      by_cases hn : n < number <;> simp [place, List.findIdx_cons, hn]
  | cons first numbers ih =>
      cases places with
      | nil => cases hlength
      | cons there places =>
          have hrest := ih (Nat.succ.inj hlength)
          by_cases hn : n < first
          · simp [place, List.findIdx_cons, hn]
          · simpa [place, List.findIdx_cons, hn] using hrest

theorem place_of_lt_head {number here : Nat} {numbers places : List Nat} (h : n < number)
    (atEnd : Nat) : place (number :: numbers) (here :: places) n atEnd = here := by
  simp [place, List.findIdx_cons, h]

theorem place_le {numbers places : List Nat} {atEnd : Nat} (h : ∀ here ∈ places, here ≤ atEnd) :
    place numbers places n atEnd ≤ atEnd := by
  rw [place, List.getD_eq_getElem?_getD]
  cases hget : places[numbers.findIdx fun number => n < number]? with
  | none => exact Nat.le_refl _
  | some here => exact h here (List.mem_of_getElem? hget)

theorem place_eq_end {numbers places : List Nat} (hlength : places.length = numbers.length)
    (h : ∀ number ∈ numbers, number ≤ n) (atEnd : Nat) :
    place numbers places n atEnd = atEnd := by
  have hidx : numbers.findIdx (fun number => decide (n < number)) = places.length := by
    rw [hlength]
    apply List.findIdx_eq_length.mpr
    intro number hnumber
    simpa using h number hnumber
  simp [place, hidx]

/-- The data from the place of the first block that a reader lacks is what the reader lacks. -/
def Placed (numbers places : List Nat) (data : List α) (log : List (Nat × List α)) : Prop :=
  ∀ n, data.drop (place numbers places n data.length) = since log n

section Placed

variable {numbers places : List Nat} {data : List α}

theorem Placed.singleton (number : Nat) (block : List α) :
    Placed [number] [0] block [(number, block)] := by
  intro n
  by_cases hn : n < number
  · rw [place_of_lt_head hn, List.drop_zero, since_eq_contents (by simpa using hn)]
    simp
  · have hle : number ≤ n := Nat.le_of_not_lt hn
    have hend : place [number] [0] n block.length = block.length :=
      place_eq_end (by simp) (by simpa using hle) _
    rw [hend, since_eq_nil (by simpa using hle), List.drop_length]

/-- A block that is added lies at the end of the data before it. -/
theorem Placed.append (h : Placed numbers places data log)
    (hlength : places.length = numbers.length) (hplaces : ∀ here ∈ places, here ≤ data.length)
    (hnumbers : ∀ m ∈ numbers, m < number) (hlog : ∀ b ∈ log, b.1 < number) :
    Placed (numbers ++ [number]) (places ++ [data.length]) (data ++ block)
      (log ++ [(number, block)]) := by
  intro n
  by_cases hn : n < number
  · rw [place_append hlength, if_pos hn, since_append_of_lt hn,
      List.drop_append_of_le_length (place_le hplaces), h n]
  · have hle : number ≤ n := Nat.le_of_not_lt hn
    have hall : ∀ m ∈ numbers ++ [number], m ≤ n := by
      intro m hm
      rcases List.mem_append.mp hm with hm | hm
      · have hlt := hnumbers m hm
        omega
      · rw [List.mem_singleton.mp hm]
        exact hle
    have hseen : ∀ b ∈ log ++ [(number, block)], b.1 ≤ n := by
      intro b hb
      rcases List.mem_append.mp hb with hb | hb
      · have hlt := hlog b hb
        omega
      · rw [List.mem_singleton.mp hb]
        exact hle
    rw [place_eq_end (by simp [hlength]) hall, since_eq_nil hseen, List.drop_length]

/-- An empty block shares the place of an empty block before it, under its own number. -/
theorem Placed.renumber {last : Nat} (hlength : places.length = numbers.length)
    (h : Placed (numbers ++ [last]) (places ++ [data.length]) data log) (number : Nat) :
    Placed (numbers ++ [number]) (places ++ [data.length]) data (log ++ [(number, [])]) := by
  have hsame : ∀ n, since (log ++ [(number, [])]) n = since log n := by
    intro n
    by_cases hn : n < number
    · rw [since_append_of_lt hn, List.append_nil]
    · simp [since, List.filter_append, hn]
  intro n
  rw [hsame, ← h n, place_append hlength, place_append hlength, ite_self, ite_self]

end Placed

end CoolOnline.NumberedLog
