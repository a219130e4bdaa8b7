import Mathlib.Data.List.Basic

/-! # Chunked texts

A text of chunks: each is a line that gives its length, that many elements and a separator. The
last line gives the length zero. Where a line can be told from what follows it, the chunks of a
text are found in one way only.
-/

namespace CoolOnline.Chunked

variable {α : Type*}

/-- Complete chunks one after the other, with what they hold. -/
inductive Chunks (line : List α → Nat → Prop) (sep : List α) : List (List α) → List α → Prop
  | nil : Chunks line sep [] []
  | cons {l payload text : List α} {payloads : List (List α)} (hline : line l payload.length)
      (hne : payload ≠ []) (hrest : Chunks line sep payloads text) :
      Chunks line sep (payload :: payloads) (l ++ (payload ++ (sep ++ text)))

/-- Chunks up to a line that says that there are no more. -/
def Body (line : List α → Nat → Prop) (sep : List α) (payloads : List (List α))
    (text : List α) : Prop :=
  ∃ chunks last, Chunks line sep payloads chunks ∧ line last 0 ∧ text = chunks ++ last

/-- A line and its length can be told from what follows it. -/
def Unambiguous (line : List α → Nat → Prop) : Prop :=
  ∀ l l' n n' rest rest', line l n → line l' n' → l ++ rest = l' ++ rest' → l = l' ∧ n = n'

/-- No chunk starts here. -/
def NoChunk (line : List α → Nat → Prop) (text : List α) : Prop :=
  ∀ l n rest, line l n → text = l ++ rest → n = 0

variable {line line' : List α → Nat → Prop} {sep : List α}

theorem Chunks.imp {payloads : List (List α)} {text : List α} (h : Chunks line sep payloads text)
    (hline : ∀ l, ∀ payload ∈ payloads, line l payload.length → line' l payload.length) :
    Chunks line' sep payloads text := by
  induction h with
  | nil => exact .nil
  | cons hl hne _ ih =>
      exact .cons (hline _ _ (by simp) hl) hne (ih fun l p hp => hline l p (by simp [hp]))

theorem Chunks.append {payloads payloads' : List (List α)} {text text' : List α}
    (h : Chunks line sep payloads text) (h' : Chunks line sep payloads' text') :
    Chunks line sep (payloads ++ payloads') (text ++ text') := by
  induction h with
  | nil => exact h'
  | cons hl hne _ ih => simpa using Chunks.cons hl hne ih

theorem Chunks.length_le {payloads : List (List α)} {text payload : List α}
    (h : Chunks line sep payloads text) (hp : payload ∈ payloads) :
    payload.length ≤ text.length := by
  induction h with
  | nil => simp at hp
  | cons hl hne _ ih =>
      simp only [List.length_append]
      rcases List.mem_cons.mp hp with rfl | hp
      · omega
      · have := ih hp
        omega

/-- What is read of a text until no chunk starts is the same in every reading. -/
theorem Chunks.unique (hline : Unambiguous line) {payloads payloads' : List (List α)}
    {text text' rest rest' : List α} (h : Chunks line sep payloads text)
    (h' : Chunks line sep payloads' text') (heq : text ++ rest = text' ++ rest')
    (hrest : NoChunk line rest) (hrest' : NoChunk line rest') :
    payloads = payloads' ∧ text = text' := by
  induction h generalizing payloads' text' with
  | nil =>
      cases h' with
      | nil => exact ⟨rfl, rfl⟩
      | cons hl' hne' _ =>
          rw [List.nil_append, List.append_assoc] at heq
          exact absurd (List.length_eq_zero_iff.mp (hrest _ _ _ hl' heq)) hne'
  | @cons l payload text payloads hl hne _ ih =>
      cases h' with
      | nil =>
          rw [List.nil_append, List.append_assoc] at heq
          exact absurd (List.length_eq_zero_iff.mp (hrest' _ _ _ hl heq.symm)) hne
      | @cons l' payload' text' payloads' hl' hne' hrest'' =>
          simp only [List.append_assoc] at heq
          have hsame := hline _ _ _ _ _ _ hl hl' heq
          obtain ⟨rfl, hlength⟩ := hsame
          have hpayload := List.append_inj (List.append_cancel_left heq) hlength
          obtain ⟨rfl, htail⟩ := hpayload
          have hrec := ih hrest'' (List.append_cancel_left htail)
          exact ⟨by rw [hrec.1], by rw [hrec.2]⟩

end CoolOnline.Chunked
