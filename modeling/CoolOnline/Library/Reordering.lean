import CoolOnline.Library.OrderedMap

/-! # Putting numbered items in order

Items come with numbers, in any order. A receiver keeps them, and hands on the ones that are next
for as long as it has them.
-/

namespace CoolOnline.Reordering

variable {α : Type*}

/-- Hands on what is kept, from a number on: the number that is next then, what is still kept, and
the items. -/
def drain : ℕ → ℕ → OrderedMap ℕ α → ℕ × OrderedMap ℕ α × List α
  | 0, next, kept => (next, kept, [])
  | turns + 1, next, kept =>
      match kept.get next with
      | none => (next, kept, [])
      | some a =>
          let rest := drain turns (next + 1) (kept.delete next)
          (rest.1, rest.2.1, a :: rest.2.2)

variable {base next number : ℕ} {kept : OrderedMap ℕ α} {sent handed : List α} {a : α}

theorem drain_of_none (turns : ℕ) (h : kept.get next = none) :
    drain turns next kept = (next, kept, []) := by
  cases turns with
  | zero => rfl
  | succ turns => rw [drain, h]

theorem drain_of_some (turns : ℕ) (h : kept.get next = some a) :
    drain (turns + 1) next kept =
      ((drain turns (next + 1) (kept.delete next)).1,
        (drain turns (next + 1) (kept.delete next)).2.1,
        a :: (drain turns (next + 1) (kept.delete next)).2.2) := by
  rw [drain, h]

theorem length_delete_lt (h : kept.get next = some a) :
    (kept.delete next).entries.length < kept.entries.length := by
  obtain ⟨entry, hentry, hkey⟩ := List.mem_map.mp (OrderedMap.mem_keys_of_get h)
  apply List.length_filter_lt_length_iff_exists.mpr
  exact ⟨entry, hentry, by simp [hkey]⟩

/-- Every turn takes an item: with enough of them none is left that is next. -/
theorem drain_get_eq_none {turns : ℕ} (h : kept.entries.length ≤ turns) :
    (drain turns next kept).2.1.get (drain turns next kept).1 = none := by
  induction turns generalizing next kept with
  | zero =>
      have hempty : kept.entries = [] := List.length_eq_zero_iff.mp (Nat.le_zero.mp h)
      show OrderedMap.find next kept.entries = none
      rw [hempty]
      rfl
  | succ turns ih =>
      cases hget : kept.get next with
      | none => rw [drain_of_none _ hget, hget]
      | some a =>
          have hlt := length_delete_lt hget
          rw [drain_of_some turns hget]
          exact ih (by omega)

/-- The item has this number. -/
def HasNumber (base : ℕ) (sent : List α) (number : ℕ) (a : α) : Prop :=
  base ≤ number ∧ sent[number - base]? = some a

/-- What is handed on are the items sent before the next number, and what is kept was sent. -/
structure InOrder (base : ℕ) (sent handed : List α) (next : ℕ) (kept : OrderedMap ℕ α) : Prop where
  base_le : base ≤ next
  next_le : next ≤ base + sent.length
  handed_eq : handed = sent.take (next - base)
  hasNumber : ∀ k a, kept.get k = some a → HasNumber base sent k a

theorem inOrder_start (base : ℕ) (sent : List α) : InOrder base sent [] base .empty where
  base_le := Nat.le_refl base
  next_le := Nat.le_add_right base _
  handed_eq := by rw [Nat.sub_self, List.take_zero]
  hasNumber _ _ h := by cases h

theorem InOrder.isPrefix (h : InOrder base sent handed next kept) : handed <+: sent :=
  h.handed_eq ▸ List.take_prefix _ _

theorem InOrder.send (h : InOrder base sent handed next kept) (a : α) :
    InOrder base (sent ++ [a]) handed next kept where
  base_le := h.base_le
  next_le := by
    rw [List.length_append]
    exact Nat.le_trans h.next_le (by omega)
  handed_eq := by
    have hle := h.next_le
    rw [List.take_append_of_le_length (by omega)]
    exact h.handed_eq
  hasNumber k b hget := by
    obtain ⟨hbase, hsome⟩ := h.hasNumber k b hget
    have hlt : k - base < sent.length := (List.getElem?_eq_some_iff.mp hsome).1
    exact ⟨hbase, by rw [List.getElem?_append_left hlt, hsome]⟩

theorem InOrder.keep (h : InOrder base sent handed next kept) (ha : HasNumber base sent number a) :
    InOrder base sent handed next (kept.set number a) where
  base_le := h.base_le
  next_le := h.next_le
  handed_eq := h.handed_eq
  hasNumber k b hget := by
    rw [OrderedMap.get_set] at hget
    split_ifs at hget with hkey
    · cases hget
      exact hkey ▸ ha
    · exact h.hasNumber k b hget

/-- The items that are handed on are the next ones. -/
theorem InOrder.drain (h : InOrder base sent handed next kept) (turns : ℕ) :
    InOrder base sent (handed ++ (drain turns next kept).2.2) (drain turns next kept).1
      (drain turns next kept).2.1 := by
  induction turns generalizing next kept handed with
  | zero => simpa [Reordering.drain] using h
  | succ turns ih =>
      cases hget : kept.get next with
      | none => simpa [drain_of_none _ hget] using h
      | some a =>
          obtain ⟨hbase, hsome⟩ := h.hasNumber next a hget
          have hlt : next - base < sent.length := (List.getElem?_eq_some_iff.mp hsome).1
          have hstep : InOrder base sent (handed ++ [a]) (next + 1) (kept.delete next) := by
            refine ⟨Nat.le_succ_of_le hbase, by omega, ?_, fun k b hk => ?_⟩
            · have hsub : next + 1 - base = next - base + 1 := by omega
              rw [hsub, List.take_add_one, hsome, h.handed_eq]
              rfl
            · rw [OrderedMap.get_delete] at hk
              split_ifs at hk
              exact h.hasNumber k b hk
          rw [drain_of_some turns hget]
          simpa using ih hstep

/-! ## Nothing is missing -/

/-- Every number that has not been handed on is kept, or is one of those still to come. -/
def Covers (base : ℕ) (sent : List α) (next : ℕ) (kept : OrderedMap ℕ α) (coming : List ℕ) : Prop :=
  ∀ k, next ≤ k → k < base + sent.length → (kept.get k).isSome = true ∨ k ∈ coming

variable {coming coming' : List ℕ}

theorem Covers.drain (h : Covers base sent next kept coming) (turns : ℕ) :
    Covers base sent (drain turns next kept).1 (drain turns next kept).2.1 coming := by
  induction turns generalizing next kept with
  | zero => exact h
  | succ turns ih =>
      cases hget : kept.get next with
      | none => rwa [drain_of_none _ hget]
      | some a =>
          have hstep : Covers base sent (next + 1) (kept.delete next) coming := by
            intro k hle hlt
            rw [OrderedMap.get_delete, if_neg (by omega)]
            exact h k (Nat.le_of_succ_le hle) hlt
          rw [drain_of_some turns hget]
          exact ih hstep

/-- A number has come. -/
theorem Covers.keep (h : Covers base sent next kept coming) (a : α)
    (hcoming : ∀ k ∈ coming, k = number ∨ k ∈ coming') :
    Covers base sent next (kept.set number a) coming' := by
  intro k hle hlt
  rw [OrderedMap.get_set]
  split_ifs with hkey
  · exact .inl rfl
  · rcases h k hle hlt with hkept | hmem
    · exact .inl hkept
    · exact .inr ((hcoming k hmem).resolve_left (Ne.symm hkey))

theorem Covers.send (h : Covers base sent next kept coming) (a : α)
    (hcoming : ∀ k ∈ coming, k ∈ coming') (hnew : base + sent.length ∈ coming') :
    Covers base (sent ++ [a]) next kept coming' := by
  intro k hle hlt
  rw [List.length_append, List.length_singleton] at hlt
  rcases Nat.lt_or_ge k (base + sent.length) with hold | hge
  · exact (h k hle hold).imp_right (hcoming k)
  · have hk : k = base + sent.length := by omega
    exact .inr (hk ▸ hnew)

theorem Covers.mono (h : Covers base sent next kept coming)
    (hcoming : ∀ k ∈ coming, k ∈ coming') : Covers base sent next kept coming' :=
  fun k hle hlt => (h k hle hlt).imp_right (hcoming k)

/-- All has been handed on when nothing is to come, and what is next is not kept. -/
theorem InOrder.eq_of_covers (h : InOrder base sent handed next kept)
    (hcovers : Covers base sent next kept []) (hnext : kept.get next = none) : handed = sent := by
  have hend : ¬ next < base + sent.length := by
    intro hlt
    rcases hcovers next (Nat.le_refl _) hlt with hkept | hmem
    · rw [hnext] at hkept
      cases hkept
    · cases hmem
  have hbase := h.base_le
  rw [h.handed_eq]
  exact List.take_of_length_le (by omega)

end CoolOnline.Reordering
