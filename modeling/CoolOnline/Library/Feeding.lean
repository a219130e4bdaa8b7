import Mathlib.Data.List.Basic

/-! # Feeding a reader

A reader is called with what it has not consumed yet and what has come since. Its reading of a text
is complete with the first call that reaches a certain point, and the text may go on there.
-/

namespace CoolOnline.Feeding

variable {σ α : Type*} {text : List α} {n d cut : ℕ} {pieces more : List (List α)}

/-- The end of the first piece that ends at `n` or behind it. -/
def firstCut (n : ℕ) : ℕ → List (List α) → Option ℕ
  | _, [] => none
  | delivered, piece :: pieces =>
      if n ≤ delivered + piece.length then some (delivered + piece.length)
      else firstCut n (delivered + piece.length) pieces

theorem le_of_firstCut (h : firstCut n d pieces = some cut) :
    n ≤ cut ∧ cut ≤ d + pieces.flatten.length := by
  induction pieces generalizing d with
  | nil => cases h
  | cons piece pieces ih =>
      rw [firstCut] at h
      rw [List.flatten_cons, List.length_append]
      split_ifs at h with hcut
      · cases h
        exact ⟨hcut, by omega⟩
      · obtain ⟨hn, hle⟩ := ih h
        exact ⟨hn, by omega⟩

theorem firstCut_isSome (hd : d < n) (h : n ≤ d + pieces.flatten.length) :
    (firstCut n d pieces).isSome = true := by
  induction pieces generalizing d with
  | nil =>
      rw [List.flatten_nil, List.length_nil] at h
      omega
  | cons piece pieces ih =>
      rw [List.flatten_cons, List.length_append, ← Nat.add_assoc] at h
      rw [firstCut]
      split_ifs with hcut
      · rfl
      · exact ih (Nat.lt_of_not_le hcut) h

theorem flatten_prefix (h : pieces <+: more) : pieces.flatten <+: more.flatten := by
  obtain ⟨behind, rfl⟩ := h
  rw [List.flatten_append]
  exact List.prefix_append _ _

theorem firstCut_append (h : firstCut n d pieces = some cut) (more : List (List α)) :
    firstCut n d (pieces ++ more) = some cut := by
  induction pieces generalizing d with
  | nil => cases h
  | cons piece pieces ih =>
      rw [firstCut] at h
      rw [List.cons_append, firstCut]
      split_ifs at h ⊢
      · exact h
      · exact ih h

theorem length_lt_of_firstCut (hd : d < n) (h : firstCut n d pieces = none) :
    d + pieces.flatten.length < n := by
  by_contra hle
  have hsome := firstCut_isSome hd (Nat.le_of_not_lt hle)
  rw [h] at hsome
  cases hsome

/-! ## Readers -/

structure Reader (σ α : Type*) where
  state : σ
  buffer : List α
  consumed : ℕ

/-- A function that reads: the new state and what is left, or an error. -/
abbrev Read (σ α : Type*) := σ → List α → Option (σ × List α)

/-- More has come; there is no reader after an error. -/
def feed (read : Read σ α) (r : Option (Reader σ α)) (piece : List α) : Option (Reader σ α) :=
  r.bind fun r =>
    (read r.state (r.buffer ++ piece)).map fun result =>
      ⟨result.1, result.2, r.consumed + ((r.buffer ++ piece).length - result.2.length)⟩

/-- The pieces, one after the other. -/
def feedAll (read : Read σ α) (s : σ) (pieces : List (List α)) : Option (Reader σ α) :=
  pieces.foldl (feed read) (some ⟨s, [], 0⟩)

theorem foldl_feed_none (read : Read σ α) (pieces : List (List α)) :
    pieces.foldl (feed read) none = none := by
  induction pieces with
  | nil => rfl
  | cons piece pieces ih => exact ih

/-- What a read makes of so much of the text: it is complete, or the reader is somewhere before
the point where it would be. -/
def Reads (stop : ℕ) (complete : List α → σ × List α) (At : List α → σ → List α → Prop)
    (delivered : List α) (result : Option (σ × List α)) : Prop :=
  stop ≤ delivered.length ∧ result = some (complete delivered) ∨
    delivered.length < stop ∧ ∃ s buffer, result = some (s, buffer) ∧ At delivered s buffer

/-- Each read goes on from where the reader is, and none from where it is complete. -/
structure ReadsText (read : Read σ α) (text : List α) (stop : ℕ) (complete : List α → σ × List α)
    (At : List α → σ → List α → Prop) : Prop where
  step : ∀ {delivered s buffer piece}, At delivered s buffer → delivered ++ piece <+: text →
    Reads stop complete At (delivered ++ piece) (read s (buffer ++ piece))
  idle : ∀ delivered p, read (complete delivered).1 p = some ((complete delivered).1, p)
  length_le : ∀ {s p s' q}, read s p = some (s', q) → q.length ≤ p.length

variable {read : Read σ α} {stop : ℕ} {complete : List α → σ × List α}
  {At : List α → σ → List α → Prop} {delivered buffer : List α} {s : σ} {consumed : ℕ}

theorem ReadsText.foldl_complete (h : ReadsText read text stop complete At) (delivered : List α)
    (pieces : List (List α)) :
    ∃ left, pieces.foldl (feed read) (some ⟨(complete delivered).1, buffer, consumed⟩) =
      some ⟨(complete delivered).1, left, consumed⟩ := by
  induction pieces generalizing buffer with
  | nil => exact ⟨buffer, rfl⟩
  | cons piece pieces ih =>
      rw [List.foldl_cons, feed, Option.bind_some, h.idle, Option.map_some, Nat.sub_self,
        Nat.add_zero]
      exact ih

/-- The first piece that reaches the point completes the reading, and nothing else is read. -/
theorem ReadsText.foldl (h : ReadsText read text stop complete At) (hat : At delivered s buffer)
    (hconsumed : consumed + buffer.length = delivered.length)
    (hpieces : delivered ++ pieces.flatten <+: text) :
    (firstCut stop delivered.length pieces = none ∧
        ∃ s' buffer', pieces.foldl (feed read) (some ⟨s, buffer, consumed⟩) =
          some ⟨s', buffer', (delivered ++ pieces.flatten).length - buffer'.length⟩ ∧
          At (delivered ++ pieces.flatten) s' buffer') ∨
      ∃ cut left, firstCut stop delivered.length pieces = some cut ∧
        pieces.foldl (feed read) (some ⟨s, buffer, consumed⟩) =
          some ⟨(complete (text.take cut)).1, left, cut - (complete (text.take cut)).2.length⟩ := by
  induction pieces generalizing delivered s buffer consumed with
  | nil =>
      left
      have hcount : delivered.length - buffer.length = consumed := by omega
      rw [List.flatten_nil, List.append_nil]
      exact ⟨rfl, s, buffer, by rw [hcount]; rfl, hat⟩
  | cons piece pieces ih =>
      rw [List.flatten_cons, ← List.append_assoc] at hpieces ⊢
      have hstart := (List.prefix_append (delivered ++ piece) pieces.flatten).trans hpieces
      rw [firstCut, List.foldl_cons, feed, Option.bind_some, ← List.length_append]
      rcases h.step hat hstart with ⟨hstop, hread⟩ | ⟨hstop, s', buffer', hread, hat'⟩
      · right
        have hle := h.length_le hread
        have htake : text.take (delivered ++ piece).length = delivered ++ piece :=
          (List.prefix_iff_eq_take.mp hstart).symm
        have hcount : consumed + ((buffer ++ piece).length -
            (complete (delivered ++ piece)).2.length) =
            (delivered ++ piece).length - (complete (delivered ++ piece)).2.length := by
          simp only [List.length_append] at hle ⊢
          omega
        obtain ⟨left, hrest⟩ := h.foldl_complete (delivered ++ piece) pieces
        refine ⟨_, left, if_pos hstop, ?_⟩
        rw [hread, Option.map_some, htake]
        simp only [hcount]
        exact hrest
      · have hle := h.length_le hread
        have hcount : consumed + ((buffer ++ piece).length - buffer'.length) + buffer'.length =
            (delivered ++ piece).length := by
          simp only [List.length_append] at hle ⊢
          omega
        rw [if_neg (Nat.not_le.mpr hstop), hread, Option.map_some]
        exact ih hat' hcount hpieces

theorem ReadsText.feedAll (h : ReadsText read text stop complete At) (hat : At [] s [])
    (hpieces : pieces.flatten <+: text) :
    (firstCut stop 0 pieces = none ∧ ∃ s' buffer', Feeding.feedAll read s pieces =
        some ⟨s', buffer', pieces.flatten.length - buffer'.length⟩ ∧ At pieces.flatten s' buffer') ∨
      ∃ cut left, firstCut stop 0 pieces = some cut ∧ Feeding.feedAll read s pieces =
        some ⟨(complete (text.take cut)).1, left, cut - (complete (text.take cut)).2.length⟩ :=
  h.foldl hat rfl hpieces

end CoolOnline.Feeding
