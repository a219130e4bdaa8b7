import Mathlib.Data.List.Pairwise

/-! # Run-length lists

A list of runs stands for the elements from a start on: each run ends with an element, begins behind
the one before it, and gives all its elements one value.
-/

namespace CoolOnline

structure Run (α : Type*) where
  /-- The last element. -/
  index : Nat
  value : α

namespace Run

variable {α : Type*}

/-- The runs are those of the elements from `start` to in front of `stop`. -/
def Covers (v : Nat → α) : Nat → Nat → List (Run α) → Prop
  | start, stop, [] => start = stop
  | start, stop, run :: runs =>
      start ≤ run.index ∧ (∀ k, start ≤ k → k ≤ run.index → v k = run.value) ∧
        Covers v (run.index + 1) stop runs

/-- The value of an element. -/
def valueAt [Inhabited α] (runs : List (Run α)) (k : Nat) : α :=
  ((runs.find? fun run => k ≤ run.index).map Run.value).getD default

/-- Where a run begins, by its number. -/
def startOf (start : Nat) (runs : List (Run α)) : Nat → Nat
  | 0 => start
  | i + 1 => (runs[i]?).elim start (·.index + 1)

variable {v w : Nat → α} {start stop i k : Nat} {run : Run α} {runs front back : List (Run α)}

theorem Covers.congr (h : Covers v start stop runs) (heq : ∀ k, start ≤ k → v k = w k) :
    Covers w start stop runs := by
  induction runs generalizing start with
  | nil => exact h
  | cons run runs ih =>
      rcases h with ⟨hle, hvalue, hrest⟩
      refine ⟨hle, fun k hstart hk => ?_, ih hrest fun k hk => heq k (by omega)⟩
      rw [← heq k hstart, hvalue k hstart hk]

theorem Covers.start_le (h : Covers v start stop runs) : start ≤ stop := by
  induction runs generalizing start with
  | nil => exact Nat.le_of_eq h
  | cons run runs ih =>
      have hrest := ih h.2.2
      have hle := h.1
      omega

theorem Covers.bounds_of_mem (h : Covers v start stop runs) (hrun : run ∈ runs) :
    start ≤ run.index ∧ run.index < stop := by
  induction runs generalizing start with
  | nil => cases hrun
  | cons first runs ih =>
      have hle := h.1
      have hstop := h.2.2.start_le
      rcases List.mem_cons.mp hrun with rfl | hrest
      · exact ⟨hle, hstop⟩
      · have hbounds := ih h.2.2 hrest
        omega

/-- Runs in ascending order are those of the values that they give. -/
theorem covers_valueAt [Inhabited α] (hasc : runs.Pairwise (·.index < ·.index))
    (hstart : ∀ run ∈ runs, start ≤ run.index)
    (hstop : (runs.getLast?).elim start (·.index + 1) = stop) :
    Covers (valueAt runs) start stop runs := by
  induction runs generalizing start with
  | nil => exact hstop
  | cons run runs ih =>
      rw [List.pairwise_cons] at hasc
      refine ⟨hstart run List.mem_cons_self, fun k _ hk => ?_, ?_⟩
      · rw [valueAt, List.find?_cons_of_pos (by simpa using hk)]
        rfl
      · have hlast : (runs.getLast?).elim (run.index + 1) (·.index + 1) = stop := by
          cases runs with
          | nil => exact hstop
          | cons next runs => exact hstop
        refine (ih hasc.2 (fun next hnext => hasc.1 next hnext) hlast).congr fun k hk => ?_
        rw [valueAt, valueAt, List.find?_cons_of_neg (by simpa using Nat.not_le.mpr hk)]

theorem startOf_succ_cons (first : Run α) (hi : i ≤ runs.length) :
    startOf start (first :: runs) (i + 1) = startOf (first.index + 1) runs i := by
  cases i with
  | zero => rfl
  | succ i =>
      rw [startOf, startOf, List.getElem?_cons_succ, List.getElem?_eq_getElem hi]
      rfl

theorem startOf_succ (hrun : runs[i]? = some run) : startOf start runs (i + 1) = run.index + 1 := by
  rw [startOf, hrun]
  rfl

theorem startOf_length :
    startOf start runs runs.length = (runs.getLast?).elim start (·.index + 1) := by
  cases runs with
  | nil => rfl
  | cons run runs =>
      rw [List.getLast?_eq_getElem?]
      rfl

/-- What a run gives its elements. -/
theorem Covers.getElem? (h : Covers v start stop runs) (hrun : runs[i]? = some run) :
    startOf start runs i ≤ run.index ∧ run.index < stop ∧
      ∀ k, startOf start runs i ≤ k → k ≤ run.index → v k = run.value := by
  induction runs generalizing start i with
  | nil => cases hrun
  | cons first runs ih =>
      cases i with
      | zero =>
          cases hrun
          exact ⟨h.1, h.2.2.start_le, h.2.1⟩
      | succ i =>
          rw [List.getElem?_cons_succ] at hrun
          rw [startOf_succ_cons first (Nat.le_of_lt (List.getElem?_eq_some_iff.mp hrun).1)]
          exact ih h.2.2 hrun

/-- Each element is in a run. -/
theorem Covers.exists_run (h : Covers v start stop runs) (hstart : start ≤ k) (hstop : k < stop) :
    ∃ i run, runs[i]? = some run ∧ startOf start runs i ≤ k ∧ k ≤ run.index := by
  induction runs generalizing start with
  | nil =>
      have heq : start = stop := h
      omega
  | cons first runs ih =>
      by_cases hk : k ≤ first.index
      case pos => exact ⟨0, first, rfl, hstart, hk⟩
      case neg =>
        rcases ih h.2.2 (by omega) with ⟨i, run, hrun, hle, hindex⟩
        refine ⟨i + 1, run, hrun, ?_, hindex⟩
        rwa [startOf_succ_cons first (Nat.le_of_lt (List.getElem?_eq_some_iff.mp hrun).1)]

/-- Runs begin one behind the other. -/
theorem Covers.startOf_mono (h : Covers v start stop runs) {i j : Nat} (hij : i ≤ j)
    (hj : j ≤ runs.length) : startOf start runs i ≤ startOf start runs j := by
  induction hij with
  | refl => exact Nat.le_refl _
  | @step j hij ih =>
      have hrun : runs[j]? = some runs[j] := List.getElem?_eq_getElem hj
      have hbounds := h.getElem? hrun
      have hprev := ih (by omega)
      rw [startOf_succ hrun]
      omega

theorem Covers.value_start (h : Covers v start stop (run :: runs)) : v start = run.value :=
  h.2.1 start (Nat.le_refl start) h.1

theorem Covers.eq_nil (h : Covers v start start runs) : runs = [] := by
  cases runs with
  | nil => rfl
  | cons run runs =>
      have hle := h.1
      have hstop := h.2.2.start_le
      omega

/-- What is left of runs from an element of the first one on. -/
theorem Covers.advance {pos : Nat} (h : Covers v start stop (run :: runs)) (hpos : start ≤ pos)
    (hle : pos ≤ run.index) : Covers v pos stop (run :: runs) :=
  ⟨hle, fun k hk => h.2.1 k (Nat.le_trans hpos hk), h.2.2⟩

theorem Covers.pairwise (h : Covers v start stop runs) : runs.Pairwise (·.index < ·.index) := by
  induction runs generalizing start with
  | nil => exact List.Pairwise.nil
  | cons run runs ih =>
      rw [List.pairwise_cons]
      refine ⟨fun next hnext => ?_, ih h.2.2⟩
      have hbounds := h.2.2.bounds_of_mem hnext
      omega

theorem Covers.valueAt_eq [Inhabited α] (h : Covers v start stop runs) (hstart : start ≤ k)
    (hstop : k < stop) : valueAt runs k = v k := by
  induction runs generalizing start with
  | nil =>
      have heq : start = stop := h
      omega
  | cons run runs ih =>
      by_cases hk : k ≤ run.index
      · rw [valueAt, List.find?_cons_of_pos (by simpa using hk), h.2.1 k hstart hk]
        rfl
      · have hrest := ih h.2.2 (by omega)
        rw [valueAt] at hrest ⊢
        rwa [List.find?_cons_of_neg (by simpa using hk)]

/-! ## Runs that are put together -/

section Push

variable [DecidableEq α] {pos last maxElement : Nat} {value next : α}

/-- A run that is not ended has begun at `start` and has the element `pos`. -/
structure Open (v : Nat → α) (start pos stop : Nat) (value : α) : Prop where
  le : start ≤ pos
  closed : pos = stop → start = stop
  value_eq : ∀ k, start ≤ k → k ≤ pos → k < stop → v k = value

/-- A run ends where the value changes or no elements are left. -/
def push {δ : Type*} (maxElement last : Nat) (value next : α) (entry : δ) : List δ :=
  if value ≠ next ∨ maxElement ≤ last then [entry] else []

/-- Elements of one value, and then the runs of the rest. -/
theorem Open.covers_push (hopen : Open v start pos stop value) (hpos : pos ≤ last)
    (hlast : last < stop) (hmax : maxElement + 1 = stop)
    (hsame : ∀ k, pos ≤ k → k ≤ last → v k = v pos) (hnext : last + 1 < stop → v (last + 1) = next)
    (hrest : ∀ begin, Open v begin (last + 1) stop next → Covers v begin stop runs) :
    Covers v start stop (push maxElement last value next ⟨last, value⟩ ++ runs) := by
  have hvalue : ∀ k, start ≤ k → k ≤ last → v k = value := by
    intro k hstart hk
    by_cases hle : k ≤ pos
    · exact hopen.value_eq k hstart hle (by omega)
    · rw [hsame k (by omega) hk]
      exact hopen.value_eq pos hopen.le (Nat.le_refl _) (by omega)
  rw [push]
  split
  case isTrue =>
    refine ⟨Nat.le_trans hopen.le hpos, hvalue, hrest (last + 1)
      ⟨Nat.le_refl _, id, fun k hk hle hlt => ?_⟩⟩
    rw [show k = last + 1 by omega] at hlt ⊢
    exact hnext hlt
  case isFalse hno =>
    rw [not_or, not_not] at hno
    have hle := hopen.le
    refine hrest start ⟨by omega, fun hstop => by omega, fun k hk hle hlt => ?_⟩
    by_cases hk' : k ≤ last
    · rw [hvalue k hk hk', hno.1]
    · rw [show k = last + 1 by omega] at hlt ⊢
      exact hnext hlt

end Push

/-! ## Two lists of runs -/

section Both

variable {β γ : Type*} {u : Nat → β} {pos last : Nat} {x : α} {y : β} {other : Run β}
  {others : List (Run β)}

/-- Both lists give one value each up to `last`, and go on behind it. -/
structure Both (v : Nat → α) (u : Nat → β) (pos last stop : Nat) (x : α) (y : β)
    (runs : List (Run α)) (others : List (Run β)) : Prop where
  pos_le : pos ≤ last
  lt_stop : last < stop
  same : ∀ k, pos ≤ k → k ≤ last → v k = x ∧ u k = y
  left : Covers v (last + 1) stop runs
  right : Covers u (last + 1) stop others

theorem Both.swap (h : Both v u pos last stop x y runs others) :
    Both u v pos last stop y x others runs :=
  ⟨h.pos_le, h.lt_stop, fun k hk hle => (h.same k hk hle).symm, h.right, h.left⟩

/-- The first run of the one list ends first. -/
theorem Covers.both_left (h : Covers v pos stop (run :: runs))
    (h' : Covers u pos stop (other :: others)) (hlt : run.index < other.index) :
    Both v u pos run.index stop run.value other.value runs (other :: others) := by
  obtain ⟨hpos, hvalue, hrest⟩ := h
  refine ⟨hpos, hrest.start_le, fun k hk hle => ⟨hvalue k hk hle, ?_⟩, hrest,
    h'.advance (Nat.le_succ_of_le hpos) hlt⟩
  exact h'.2.1 k hk (Nat.le_trans hle (Nat.le_of_lt hlt))

theorem Covers.both_right (h : Covers v pos stop (run :: runs))
    (h' : Covers u pos stop (other :: others)) (hlt : other.index < run.index) :
    Both v u pos other.index stop run.value other.value (run :: runs) others :=
  (h'.both_left h hlt).swap

theorem Covers.both_end (h : Covers v pos stop (run :: runs))
    (h' : Covers u pos stop (other :: others)) (heq : run.index = other.index) :
    Both v u pos other.index stop run.value other.value runs others := by
  obtain ⟨hpos, hvalue, hrest⟩ := h'
  obtain ⟨-, hvalue', hrest'⟩ := h
  rw [heq] at hvalue' hrest'
  exact ⟨hpos, hrest.start_le, fun k hk hle => ⟨hvalue' k hk hle, hvalue k hk hle⟩, hrest', hrest⟩

/-- The run of a result up to `last`, and then the runs of the rest. -/
theorem Both.covers_push [DecidableEq γ] {f : α → β → γ} {maxElement : Nat} {value next : γ}
    {results : List (Run γ)} (h : Both v u pos last stop x y runs others)
    (hopen : Open (fun k => f (v k) (u k)) start pos stop value) (hmax : maxElement + 1 = stop)
    (hnext : last + 1 < stop → f (v (last + 1)) (u (last + 1)) = next)
    (hrest : ∀ begin, Open (fun k => f (v k) (u k)) begin (last + 1) stop next →
      Covers (fun k => f (v k) (u k)) begin stop results) :
    Covers (fun k => f (v k) (u k)) start stop
      (push maxElement last value next ⟨last, value⟩ ++ results) := by
  refine hopen.covers_push h.pos_le h.lt_stop hmax (fun k hk hle => ?_) hnext hrest
  obtain ⟨hv, hu⟩ := h.same k hk hle
  obtain ⟨hvpos, hupos⟩ := h.same pos (Nat.le_refl pos) h.pos_le
  rw [hv, hu, hvpos, hupos]

end Both

/-! ## Runs of bits -/

/-- The runs whose bit changes from each to the next. -/
def alternate : Bool → List Nat → List (Run Bool)
  | _, [] => []
  | bit, last :: ends => ⟨last, bit⟩ :: alternate (!bit) ends

theorem map_index_alternate (bit : Bool) (ends : List Nat) :
    (alternate bit ends).map Run.index = ends := by
  induction ends generalizing bit with
  | nil => rfl
  | cons last ends ih => rw [alternate, List.map_cons, ih]

theorem xor_odd_succ (bit : Bool) (i : Nat) :
    (bit ^^ ((i + 1) % 2 == 1)) = !(bit ^^ (i % 2 == 1)) := by
  rcases Nat.mod_two_eq_zero_or_one i with hi | hi
  · rw [hi, show (i + 1) % 2 = 1 by omega]
    cases bit <;> rfl
  · rw [hi, show (i + 1) % 2 = 0 by omega]
    cases bit <;> rfl

theorem getElem?_alternate (bit : Bool) (ends : List Nat) (i : Nat) :
    (alternate bit ends)[i]? = (ends[i]?).map fun last => ⟨last, bit ^^ (i % 2 == 1)⟩ := by
  induction ends generalizing bit i with
  | nil => rfl
  | cons last ends ih =>
      cases i with
      | zero => simp [alternate]
      | succ i =>
          rw [alternate, List.getElem?_cons_succ, List.getElem?_cons_succ, ih, xor_odd_succ,
            Bool.not_xor]

/-- A run that ends changes the bit. -/
theorem alternate_push {maxElement last : Nat} {bit next : Bool} {ends : List Nat}
    (hend : maxElement ≤ last → ends = []) :
    alternate bit (push maxElement last bit next last ++ ends) =
      push maxElement last bit next ⟨last, bit⟩ ++ alternate next ends := by
  rw [push, push]
  by_cases hne : bit = next
  · by_cases hlast : maxElement ≤ last
    · simp [hlast, hend hlast, alternate]
    · simp [hne, hlast]
  · have hnot : (!bit) = next := by cases bit <;> cases next <;> simp_all
    simp [hne, alternate, hnot]

theorem Covers.alternate_start {bits : Nat → Bool} {bit : Bool} {ends : List Nat}
    (h : Covers bits start stop (alternate bit ends)) (hlt : start < stop) : bits start = bit := by
  cases ends with
  | nil => exact absurd h (Nat.ne_of_lt hlt)
  | cons last ends => exact h.value_start

/-! ## Where runs end -/

theorem Covers.getLast?_map_index {last : Nat} (h : Covers v start (last + 1) runs)
    (hle : start ≤ last) : (runs.map Run.index).getLast? = some last := by
  induction runs generalizing start with
  | nil =>
      have heq : start = last + 1 := h
      omega
  | cons run runs ih =>
      have hstop := h.2.2.start_le
      rcases Nat.lt_or_ge run.index last with hlt | hge
      · rw [List.map_cons, List.getLast?_cons, ih h.2.2 hlt]
        rfl
      · have heq : run.index = last := by omega
        have hnil : runs = [] := by
          have hrest := h.2.2
          rw [heq] at hrest
          exact hrest.eq_nil
        rw [hnil, heq.symm]
        rfl

/-- Runs that end in ascending order are those of the values that they give. -/
theorem covers_of_ends [Inhabited α] {last : Nat} (hasc : (runs.map Run.index).Pairwise (· < ·))
    (hlast : (runs.map Run.index).getLast? = some last) :
    Covers (valueAt runs) 0 (last + 1) runs := by
  refine covers_valueAt (List.pairwise_map.mp hasc) (fun _ _ => Nat.zero_le _) ?_
  rw [List.getLast?_map] at hlast
  rcases Option.map_eq_some_iff.mp hlast with ⟨run, hrun, rfl⟩
  rw [hrun]
  rfl

end Run

end CoolOnline
