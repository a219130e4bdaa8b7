import Mathlib.Data.List.Basic

/-! # Spans of a buffer moved to its front

The parts of a buffer that count are moved, in order, to its front. Each one moves towards the
front, so that the parts still to be moved are as they were.
-/

namespace CoolOnline.Spans

variable {α : Type*}

/-- Copy `len` elements at `src` to `dest`, as if through another buffer. -/
def memmove (buffer : List α) (dest src len : Nat) : List α :=
  buffer.take dest ++ ((buffer.drop src).take len ++ buffer.drop (dest + len))

/-- Move the spans, offsets and lengths, to `dest` and behind. -/
def collate (buffer : List α) (dest : Nat) : List (Nat × Nat) → List α × Nat
  | [] => (buffer, dest)
  | (offset, len) :: spans => collate (memmove buffer dest offset len) (dest + len) spans

/-- Spans between `start` and `stop` that do not overlap, in order, with what they hold. -/
inductive Within (buffer : List α) (stop : Nat) : Nat → List (Nat × Nat) → List (List α) → Prop
  | nil {start : Nat} (h : start ≤ stop) : Within buffer stop start [] []
  | cons {start offset : Nat} {part : List α} {spans : List (Nat × Nat)} {parts : List (List α)}
      (hstart : start ≤ offset) (hpart : (buffer.drop offset).take part.length = part)
      (hrest : Within buffer stop (offset + part.length) spans parts) :
      Within buffer stop start ((offset, part.length) :: spans) (part :: parts)

variable {buffer original : List α}

theorem Within.start_le {start stop : Nat} {spans : List (Nat × Nat)} {parts : List (List α)}
    (h : Within buffer stop start spans parts) : start ≤ stop := by
  induction h with
  | nil h => exact h
  | cons hstart _ _ ih => omega

theorem Within.mono {start start' stop : Nat} {spans : List (Nat × Nat)} {parts : List (List α)}
    (h : Within buffer stop start spans parts) (hle : start' ≤ start) :
    Within buffer stop start' spans parts := by
  cases h with
  | nil h => exact .nil (Nat.le_trans hle h)
  | cons hstart hpart hrest => exact .cons (Nat.le_trans hle hstart) hpart hrest

theorem Within.stop_mono {start stop stop' : Nat} {spans : List (Nat × Nat)}
    {parts : List (List α)} (h : Within buffer stop start spans parts) (hle : stop ≤ stop') :
    Within buffer stop' start spans parts := by
  induction h with
  | nil h => exact .nil (Nat.le_trans h hle)
  | cons hstart hpart _ ih => exact .cons hstart hpart ih

theorem Within.flatten_le {start stop : Nat} {spans : List (Nat × Nat)} {parts : List (List α)}
    (h : Within buffer stop start spans parts) : start + parts.flatten.length ≤ stop := by
  induction h with
  | nil h => exact h
  | cons hstart _ _ ih =>
      rw [List.flatten_cons, List.length_append]
      omega

theorem memmove_length {dest src len : Nat} (hdest : dest ≤ src)
    (hsrc : src + len ≤ buffer.length) : (memmove buffer dest src len).length = buffer.length := by
  simp only [memmove, List.length_append, List.length_take, List.length_drop]
  omega

theorem memmove_take {dest src len : Nat} (hdest : dest ≤ src) (hsrc : src + len ≤ buffer.length) :
    (memmove buffer dest src len).take (dest + len) =
      buffer.take dest ++ (buffer.drop src).take len := by
  have hlength : (buffer.take dest ++ (buffer.drop src).take len).length = dest + len := by
    simp only [List.length_append, List.length_take, List.length_drop]
    omega
  rw [memmove, ← List.append_assoc, ← hlength, List.take_left]

theorem memmove_drop {dest src len : Nat} (hdest : dest ≤ src)
    (hsrc : src + len ≤ buffer.length) :
    (memmove buffer dest src len).drop (src + len) = buffer.drop (src + len) := by
  have hlength : (buffer.take dest ++ (buffer.drop src).take len).length = dest + len := by
    simp only [List.length_append, List.length_take, List.length_drop]
    omega
  have hsplit : src + len = (dest + len) + (src - dest) := by omega
  rw [memmove, ← List.append_assoc, hsplit, ← List.drop_drop]
  rw [List.drop_left' hlength, List.drop_drop]

/-- Collating leaves the parts one after the other, and what comes behind the spans. -/
theorem collate_eq {dest start stop : Nat} {spans : List (Nat × Nat)} {parts : List (List α)}
    (h : Within original stop start spans parts) (hdest : dest ≤ start)
    (hstop : stop ≤ original.length) (hlength : buffer.length = original.length)
    (hrest : buffer.drop start = original.drop start) :
    (collate buffer dest spans).2 = dest + parts.flatten.length ∧
      (collate buffer dest spans).1.take (dest + parts.flatten.length) =
        buffer.take dest ++ parts.flatten ∧
      (collate buffer dest spans).1.drop stop = original.drop stop := by
  induction h generalizing buffer dest with
  | @nil start hle =>
      refine ⟨by simp [collate], by simp [collate], ?_⟩
      have hsplit : stop = start + (stop - start) := by omega
      rw [collate, hsplit, ← List.drop_drop, hrest, List.drop_drop]
  | @cons start offset part spans parts hstart hpart hwithin ih =>
      have hfit : offset + part.length ≤ buffer.length := by
        have := hwithin.start_le
        omega
      have hle : dest ≤ offset := Nat.le_trans hdest hstart
      have hsame (i : Nat) (hi : start ≤ i) : buffer.drop i = original.drop i := by
        have hsplit : i = start + (i - start) := by omega
        rw [hsplit, ← List.drop_drop, hrest, List.drop_drop]
      have hmoved : (memmove buffer dest offset part.length).drop (offset + part.length) =
          original.drop (offset + part.length) := by
        rw [memmove_drop hle hfit]
        exact hsame _ (by omega)
      have htake : (memmove buffer dest offset part.length).take (dest + part.length) =
          buffer.take dest ++ part := by
        rw [memmove_take hle hfit, hsame offset hstart, hpart]
      have hnext : dest + part.length ≤ offset + part.length := by omega
      have hrec := ih hnext
        ((memmove_length hle hfit).trans hlength) hmoved
      rw [htake] at hrec
      simpa [collate, Nat.add_assoc] using hrec

end CoolOnline.Spans
