import Mathlib.Order.Lattice
import Mathlib.Data.List.TakeWhile

/-! # Lists sorted by a key

Lists whose keys increase strictly, and insertion at the lower bound, which replaces an element of
the same key.
-/

namespace CoolOnline.SortedList

variable {α κ : Type*} [LinearOrder κ] (key : α → κ)

def Strict (l : List α) : Prop := l.Pairwise fun a b => key a < key b

instance (l : List α) : Decidable (Strict key l) := inferInstanceAs (Decidable (List.Pairwise _ l))

/-- The elements before the lower bound of a key, and those from it on. -/
def before (k : κ) (l : List α) : List α := l.takeWhile fun b => decide (key b < k)
def atLeast (k : κ) (l : List α) : List α := l.dropWhile fun b => decide (key b < k)

def insert (l : List α) (a : α) : List α :=
  match atLeast key (key a) l with
  | [] => before key (key a) l ++ [a]
  | b :: after =>
      if key a = key b then before key (key a) l ++ a :: after
      else before key (key a) l ++ a :: b :: after

variable {key} {l : List α} {a b : α} {k : κ}

theorem before_append_atLeast (key : α → κ) (k : κ) (l : List α) : before key k l ++ atLeast key k l = l :=
  List.takeWhile_append_dropWhile

theorem lt_of_mem_before (h : b ∈ before key k l) : key b < k := by
  simpa using List.mem_takeWhile_imp h

theorem Strict.le_of_mem_atLeast (hl : Strict key l) (h : b ∈ atLeast key k l) : k ≤ key b := by
  induction l with
  | nil => simp [atLeast] at h
  | cons c l ih =>
      obtain ⟨hc, hrest⟩ := List.pairwise_cons.mp hl
      by_cases hlt : key c < k
      · apply ih hrest
        simpa [atLeast, hlt] using h
      · have hmem : b ∈ c :: l := by simpa [atLeast, hlt] using h
        rcases List.mem_cons.mp hmem with rfl | hb
        · exact not_lt.mp hlt
        · exact (not_lt.mp hlt).trans (hc b hb).le

theorem Strict.of_append {l' : List α} (h : Strict key (l ++ l')) :
    Strict key l ∧ Strict key l' := by
  obtain ⟨hl, hl', -⟩ := List.pairwise_append.mp h
  exact ⟨hl, hl'⟩

/-- The new element replaces the one of its key at the lower bound, or is put before it. -/
theorem insert_cases (key : α → κ) (l : List α) (a : α) :
    (∃ b after, l = before key (key a) l ++ b :: after ∧ key b = key a ∧
        atLeast key (key a) l = b :: after ∧
        insert key l a = before key (key a) l ++ a :: after) ∨
      (insert key l a = before key (key a) l ++ a :: atLeast key (key a) l ∧
        ∀ b ∈ (atLeast key (key a) l).head?, key b ≠ key a) := by
  have hsplit := before_append_atLeast key (key a) l
  cases hrest : atLeast key (key a) l with
  | nil => exact Or.inr ⟨by simp [insert, hrest], by simp⟩
  | cons b after =>
      by_cases hkey : key a = key b
      · refine Or.inl ⟨b, after, ?_, hkey.symm, rfl, ?_⟩
        · rw [← hrest, hsplit]
        · simp only [insert, hrest]
          rw [if_pos hkey]
      · refine Or.inr ⟨by simp [insert, hrest, hkey], ?_⟩
        intro c hc
        cases hc
        exact Ne.symm hkey

theorem mem_insert (h : b ∈ insert key l a) : b = a ∨ b ∈ l := by
  have hsplit := before_append_atLeast key (key a) l
  rw [← hsplit, List.mem_append]
  rcases insert_cases key l a with ⟨c, after, -, -, hrest, heq⟩ | ⟨heq, -⟩
  · rw [heq] at h
    rw [hrest]
    simp only [List.mem_append, List.mem_cons] at h ⊢
    rcases h with h | h | h
    · exact Or.inr (Or.inl h)
    · exact Or.inl h
    · exact Or.inr (Or.inr (Or.inr h))
  · rw [heq] at h
    simp only [List.mem_append, List.mem_cons] at h
    rcases h with h | h | h
    · exact Or.inr (Or.inl h)
    · exact Or.inl h
    · exact Or.inr (Or.inr h)

/-- Without an element of its key the new element is only added. -/
theorem insert_perm (h : ∀ b ∈ l, key b ≠ key a) : (insert key l a).Perm (a :: l) := by
  rcases insert_cases key l a with ⟨b, after, hl, hb, -, -⟩ | ⟨heq, -⟩
  · have hmem : b ∈ l := by
      rw [hl]
      simp
    exact absurd hb (h b hmem)
  · rw [heq]
    have hsplit := before_append_atLeast key (key a) l
    refine List.perm_middle.trans ?_
    rw [hsplit]

/-- Insertion keeps the list sorted. -/
theorem Strict.insert (hl : Strict key l) (a : α) : Strict key (insert key l a) := by
  have hsplit := before_append_atLeast key (key a) l
  have hparts : Strict key (before key (key a) l ++ atLeast key (key a) l) := by
    rw [hsplit]
    exact hl
  obtain ⟨hbefore, hatLeast, hcross⟩ := List.pairwise_append.mp hparts
  rcases insert_cases key l a with ⟨b, after, -, hb, hrest, heq⟩ | ⟨heq, hhead⟩
  · rw [heq]
    rw [hrest] at hatLeast hcross
    obtain ⟨hafter, hsorted⟩ := List.pairwise_cons.mp hatLeast
    refine List.pairwise_append.mpr ⟨hbefore, List.pairwise_cons.mpr ⟨?_, hsorted⟩, ?_⟩
    · intro c hc
      rw [← hb]
      exact hafter c hc
    · intro c hc d hd
      rcases List.mem_cons.mp hd with rfl | hd
      · exact lt_of_mem_before hc
      · exact hcross c hc d (List.mem_cons_of_mem _ hd)
  · rw [heq]
    refine List.pairwise_append.mpr ⟨hbefore, List.pairwise_cons.mpr ⟨?_, hatLeast⟩, ?_⟩
    · intro c hc
      -- The first element from the lower bound on has a greater key, the others follow it.
      cases hrest : atLeast key (key a) l with
      | nil => simp [hrest] at hc
      | cons d after =>
          have hd : key a < key d := by
            have hle := hl.le_of_mem_atLeast (k := key a) (b := d) (by simp [hrest])
            exact lt_of_le_of_ne hle (hhead d (by simp [hrest])).symm
          rw [hrest] at hc hatLeast
          rcases List.mem_cons.mp hc with rfl | hc
          · exact hd
          · exact hd.trans ((List.pairwise_cons.mp hatLeast).1 c hc)
    · intro c hc d hd
      rcases List.mem_cons.mp hd with rfl | hd
      · exact lt_of_mem_before hc
      · exact hcross c hc d hd

end CoolOnline.SortedList
