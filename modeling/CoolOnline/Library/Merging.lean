import Mathlib.Logic.Relation
import Mathlib.Data.List.Chain

/-! # Sequences up to merging neighbours

What a sequence becomes when neighbours that can be joined are replaced by what they join to.
-/

namespace CoolOnline

variable {α : Type*} {join : α → α → Option α}

inductive MergeStep (join : α → α → Option α) : List α → List α → Prop
  | joined {a b c : α} (before after : List α) (h : join a b = some c) :
      MergeStep join (before ++ a :: b :: after) (before ++ c :: after)

/-- Nothing is lost, added or moved but by joining neighbours. -/
def MergesTo (join : α → α → Option α) : List α → List α → Prop :=
  Relation.ReflTransGen (MergeStep join)

namespace MergesTo

theorem refl (l : List α) : MergesTo join l l := Relation.ReflTransGen.refl

variable {l l' : List α}

theorem append_right (h : MergesTo join l l') (r : List α) :
    MergesTo join (l ++ r) (l' ++ r) := by
  induction h with
  | refl => exact refl _
  | tail _ hstep ih =>
      refine ih.tail ?_
      cases hstep with
      | joined before after hjoin =>
          simpa using MergeStep.joined before (after ++ r) hjoin

/-- An element is joined to the last one. -/
theorem join_last {a b c : α} (h : MergesTo join l (l' ++ [a])) (hjoin : join a b = some c) :
    MergesTo join (l ++ [b]) (l' ++ [c]) := by
  refine (h.append_right [b]).tail ?_
  simpa using MergeStep.joined l' [] hjoin

/-- Without neighbours to join a sequence stays as it is. -/
theorem eq_of_isChain (hl : l.IsChain fun a b => join a b = none) (h : MergesTo join l l') :
    l' = l := by
  induction h with
  | refl => rfl
  | tail _ hstep ih =>
      subst ih
      cases hstep with
      | joined before after hjoin =>
          have hab := (List.isChain_append_cons_cons.mp hl).2.1
          rw [hjoin] at hab
          cases hab

end MergesTo

end CoolOnline
