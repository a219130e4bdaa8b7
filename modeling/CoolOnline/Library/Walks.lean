import Mathlib.Data.Fintype.Card
import Mathlib.Data.Set.Finite.Basic
import Mathlib.Logic.Relation

/-! # Walks that end

Steps lead from finitely many places. All walks from a place come to an end if and only if none of
them gets to a place that it can get back to.
-/

namespace CoolOnline.Walks

open Relation

variable {α : Type*} {R : α → α → Prop} {a b : α}

/-- All walks from here come to an end. -/
def Ends (R : α → α → Prop) (a : α) : Prop := Acc (fun b a => R a b) a

theorem Ends.intro (h : ∀ b, R a b → Ends R b) : Ends R a := Acc.intro a h

theorem Ends.next (h : Ends R a) (hstep : R a b) : Ends R b := Acc.inv h hstep

theorem Ends.reaches (h : Ends R a) (hwalk : ReflTransGen R a b) : Ends R b := by
  induction hwalk with
  | refl => exact h
  | tail _ hstep ih => exact ih.next hstep

/-- A place with an end is on no cycle. -/
theorem Ends.not_cycle (h : Ends R a) : ¬ TransGen R a a := by
  induction h with
  | intro a _ ih =>
      intro hcycle
      rcases TransGen.head'_iff.mp hcycle with ⟨b, hstep, hback⟩
      exact ih b hstep (TransGen.tail' hback hstep)

/-- The places that are reached and that a step leads from are ordered by what they lead to. -/
theorem ends_of_acyclic (hfinite : {a | ∃ b, R a b}.Finite)
    (h : ∀ b, ReflTransGen R a b → ¬ TransGen R b b) : Ends R a := by
  let places : Set α := {b | (∃ c, R b c) ∧ ReflTransGen R a b}
  have hplaces : Finite places := hfinite.subset fun _ hb => hb.1
  have hirrefl : Std.Irrefl fun c b : places => TransGen R b.1 c.1 :=
    ⟨fun b hcycle => h b.1 b.2.2 hcycle⟩
  have htrans : IsTrans places fun c b => TransGen R b.1 c.1 :=
    ⟨fun _ _ _ hcb hba => hba.trans hcb⟩
  have hwell : WellFounded fun c b : places => TransGen R b.1 c.1 :=
    Finite.wellFounded_of_trans_of_irrefl _
  have hall : ∀ b : places, Ends R b.1 := by
    intro b
    induction b using hwell.induction with
    | h b ih =>
        apply Ends.intro
        intro c hstep
        by_cases hmore : ∃ d, R c d
        case pos => exact ih ⟨c, hmore, b.2.2.tail hstep⟩ (.single hstep)
        case neg => exact Ends.intro fun d hd => absurd ⟨d, hd⟩ hmore
  by_cases hmore : ∃ b, R a b
  case pos => exact hall ⟨a, hmore, .refl⟩
  case neg => exact Ends.intro fun b hb => absurd ⟨b, hb⟩ hmore

end CoolOnline.Walks
