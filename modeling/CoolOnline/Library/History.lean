import Mathlib.Logic.Relation
import Mathlib.Data.List.Basic

/-! # Runs and histories

A machine takes partial steps on events, all of them or those that meet a condition. A history
is the list of what was observed, newest first; a property of a history says something of each
observation and of what was observed before it.
-/

namespace CoolOnline

section Runs

variable {σ ε : Type*} (step : σ → ε → Option σ)

/-- A run over a list of events, if every one of them can happen. -/
def run : σ → List ε → Option σ
  | s, [] => some s
  | s, e :: es => (step s e).bind fun s => run s es

@[simp] theorem run_nil (s : σ) : run step s [] = some s := rfl

theorem run_cons_eq_some {s s' : σ} {e : ε} {es : List ε} :
    run step s (e :: es) = some s' ↔ ∃ s₁, step s e = some s₁ ∧ run step s₁ es = some s' := by
  simp only [run, Option.bind_eq_some_iff]

theorem run_append (s : σ) (es es' : List ε) :
    run step s (es ++ es') = (run step s es).bind fun s => run step s es' := by
  induction es generalizing s with
  | nil => rfl
  | cons e es ih => simp only [List.cons_append, run, ih, Option.bind_assoc]

/-- What every step preserves holds after a run. -/
theorem run_invariant {I : σ → Prop} (hstep : ∀ s e s', step s e = some s' → I s → I s')
    {s s' : σ} {es : List ε} (hrun : run step s es = some s') (h : I s) : I s' := by
  induction es generalizing s with
  | nil =>
      cases hrun
      exact h
  | cons e es ih =>
      obtain ⟨s₁, hs, hrest⟩ := (run_cons_eq_some step).mp hrun
      exact ih hrest (hstep s e s₁ hs h)

/-- What an evaluation shows of a result that is there. -/
theorem exists_of_any {α : Type*} {o : Option α} {P : α → Prop} [DecidablePred P]
    (h : (o.any fun a => P a) = true) : ∃ a, o = some a ∧ P a := by
  cases o with
  | none => cases h
  | some a => exact ⟨a, rfl, of_decide_eq_true h⟩

/-- A run reaches a state that an evaluation of it shows. -/
theorem run_reaches (s : σ) (es : List ε) {P : σ → Prop} [DecidablePred P]
    (h : (run step s es).any fun s => P s) : ∃ s', run step s es = some s' ∧ P s' :=
  exists_of_any h

/-- A total system whose steps the steps of another follow. -/
theorem run_eq_foldl {τ : Type*} {f : τ → σ} {next : τ → ε → τ} {I : τ → Prop}
    (hstep : ∀ t e, I t → step (f t) e = some (f (next t e)) ∧ I (next t e)) (es : List ε) {t : τ}
    (h : I t) : run step (f t) es = some (f (es.foldl next t)) ∧ I (es.foldl next t) := by
  induction es generalizing t with
  | nil => exact ⟨rfl, h⟩
  | cons e es ih =>
      have hnext := hstep t e h
      rw [run, hnext.1]
      exact ih hnext.2

/-- Only the steps that meet a condition on the event and the state before it. -/
def stepIf (C : σ → ε → Bool) : σ → ε → Option σ := fun s e => if C s e then step s e else none

theorem stepIf_eq_some {C : σ → ε → Bool} {s s' : σ} {e : ε} :
    stepIf step C s e = some s' ↔ C s e = true ∧ step s e = some s' := by
  simp only [stepIf]
  split <;> simp_all

/-- Every step over a list of events meets a condition on it and on the states around it. -/
def AllSteps (P : σ → ε → σ → Prop) : σ → List ε → Prop
  | _, [] => True
  | s, e :: es => ∀ s', step s e = some s' → P s e s' ∧ AllSteps P s' es

theorem AllSteps.of_cons {P : σ → ε → σ → Prop} {s s' : σ} {e : ε} {es : List ε}
    (h : AllSteps step P s (e :: es)) (hs : step s e = some s') :
    P s e s' ∧ AllSteps step P s' es :=
  h s' hs

theorem allSteps_cons_of_step {P : σ → ε → σ → Prop} {s s' : σ} {e : ε} {es : List ε}
    (hs : step s e = some s') (h : P s e s') (hes : AllSteps step P s' es) :
    AllSteps step P s (e :: es) := by
  intro s₁ hs₁
  cases hs.symm.trans hs₁
  exact ⟨h, hes⟩

/-- The steps from states with an invariant meet what the invariant and the step give. -/
theorem allSteps_of_invariant {P : σ → ε → σ → Prop} {I : σ → Prop}
    (hstep : ∀ s e s', I s → step s e = some s' → P s e s' ∧ I s') {s : σ} (h : I s)
    (es : List ε) : AllSteps step P s es := by
  induction es generalizing s with
  | nil => trivial
  | cons e es ih =>
      intro s' hs
      obtain ⟨hP, hI⟩ := hstep s e s' h hs
      exact ⟨hP, ih hI⟩

/-- So they do where only the steps that meet another condition keep the invariant. -/
theorem AllSteps.imp {P Q : σ → ε → σ → Prop} {I : σ → Prop} {s : σ} {es : List ε}
    (hall : AllSteps step P s es) (h : I s)
    (hstep : ∀ s e s', I s → step s e = some s' → P s e s' → Q s e s' ∧ I s') :
    AllSteps step Q s es := by
  induction es generalizing s with
  | nil => trivial
  | cons e es ih =>
      intro s' hs
      obtain ⟨hP, hes⟩ := hall s' hs
      obtain ⟨hQ, hI⟩ := hstep s e s' h hs hP
      exact ⟨hQ, ih hes hI⟩

/-- Conditions that say the same of the steps from states with an invariant, which the steps that
meet one of them keep. -/
theorem allSteps_iff {P Q : σ → ε → σ → Prop} {I : σ → Prop}
    (hiff : ∀ s e s', I s → step s e = some s' → (P s e s' ↔ Q s e s'))
    (hkeeps : ∀ s e s', I s → step s e = some s' → P s e s' → I s') {s : σ} (h : I s)
    (es : List ε) : AllSteps step P s es ↔ AllSteps step Q s es := by
  constructor
  · intro hall
    apply hall.imp step h
    intro s e s' hI hs hP
    exact ⟨(hiff s e s' hI hs).mp hP, hkeeps s e s' hI hs hP⟩
  · intro hall
    apply hall.imp step h
    intro s e s' hI hs hQ
    have hP := (hiff s e s' hI hs).mpr hQ
    exact ⟨hP, hkeeps s e s' hI hs hP⟩

end Runs

section Histories

variable {α : Type*}

/-- `P` holds of every observation and of what was observed before it. -/
def Along (P : α → List α → Prop) : List α → Prop
  | [] => True
  | o :: older => P o older ∧ Along P older

variable {P Q : α → List α → Prop}

instance decidableAlong [∀ o older, Decidable (P o older)] : ∀ l, Decidable (Along P l)
  | [] => isTrue trivial
  | o :: older =>
      have := decidableAlong older
      inferInstanceAs (Decidable (P o older ∧ Along P older))

@[simp] theorem along_nil : Along P [] := trivial

@[simp] theorem along_cons {o : α} {older : List α} :
    Along P (o :: older) ↔ P o older ∧ Along P older := Iff.rfl

theorem Along.of_append {newer older : List α} (h : Along P (newer ++ older)) : Along P older := by
  induction newer with
  | nil => exact h
  | cons o newer ih => exact ih h.2

theorem Along.of_suffix {older l : List α} (h : Along P l) (hs : older <:+ l) : Along P older := by
  obtain ⟨newer, rfl⟩ := hs
  exact h.of_append

theorem Along.imp {l : List α} (h : Along P l) (hPQ : ∀ o older, P o older → Q o older) :
    Along Q l := by
  induction l with
  | nil => exact trivial
  | cons o older ih => exact ⟨hPQ o older h.1, ih h.2⟩

theorem Along.at {newer older : List α} {o : α} (h : Along P (newer ++ o :: older)) : P o older :=
  h.of_append.1

theorem Along.of_mem {l : List α} {o : α} (h : Along P l) (ho : o ∈ l) : ∃ older, P o older := by
  obtain ⟨newer, older, rfl⟩ := List.append_of_mem ho
  exact ⟨older, h.at⟩

/-- Something was opened and not closed since. -/
def Pending (opens closes : α → Prop) : List α → Prop
  | [] => False
  | o :: older => opens o ∨ ¬ closes o ∧ Pending opens closes older

instance decidablePending {opens closes : α → Prop} [DecidablePred opens] [DecidablePred closes] :
    ∀ l, Decidable (Pending opens closes l)
  | [] => isFalse id
  | o :: older =>
      have : Decidable (Pending opens closes older) := decidablePending older
      inferInstanceAs (Decidable (opens o ∨ ¬ closes o ∧ Pending opens closes older))

theorem Pending.exists_opens {opens closes : α → Prop} {l : List α}
    (h : Pending opens closes l) : ∃ o ∈ l, opens o := by
  induction l with
  | nil => exact h.elim
  | cons o older ih =>
      rcases h with hopens | ⟨-, hrest⟩
      · exact ⟨o, by simp, hopens⟩
      · obtain ⟨o', hmem, hopens⟩ := ih hrest
        exact ⟨o', by simp [hmem], hopens⟩

/-- What is pending after new observations was opened by one of them, or is pending before them
and not closed by one. -/
theorem Pending.of_append {opens closes : α → Prop} {newer older : List α}
    (h : Pending opens closes (newer ++ older)) :
    (∃ o ∈ newer, opens o) ∨ (∀ o ∈ newer, ¬ closes o) ∧ Pending opens closes older := by
  induction newer with
  | nil => exact .inr ⟨by simp, h⟩
  | cons o newer ih =>
      rcases h with hopens | ⟨hcloses, hrest⟩
      · exact .inl ⟨o, by simp, hopens⟩
      · rcases ih hrest with ⟨o', hmem, hopens⟩ | ⟨hnone, holder⟩
        · exact .inl ⟨o', by simp [hmem], hopens⟩
        · exact .inr ⟨by simpa using ⟨hcloses, hnone⟩, holder⟩

end Histories

section Observed

variable {σ α : Type*} {R : σ → σ → Prop} {hist : σ → List α} {C : α → List α → Prop}

/-- Where changes only add observations, what each change preserves under `C` holds after any
number of them, when `C` holds along the final history. -/
theorem changes_invariant {I : σ → Prop} (hgrow : ∀ s s', R s s' → hist s <:+ hist s')
    (hchange : ∀ s s', R s s' → Along C (hist s') → I s → I s') {s s' : σ}
    (hsteps : Relation.ReflTransGen R s s') (hC : Along C (hist s')) (h : I s) : I s' := by
  induction hsteps with
  | refl => exact h
  | tail _ hlast ih => exact hchange _ _ hlast hC (ih (hC.of_suffix (hgrow _ _ hlast)))

theorem changes_grow (hgrow : ∀ s s', R s s' → hist s <:+ hist s') {s s' : σ}
    (hsteps : Relation.ReflTransGen R s s') : hist s <:+ hist s' := by
  induction hsteps with
  | refl => exact List.suffix_rfl
  | tail _ hlast ih => exact ih.trans (hgrow _ _ hlast)

end Observed

end CoolOnline
