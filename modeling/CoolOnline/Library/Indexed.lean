import CoolOnline.Library.Streams

/-! # Reading by index

Elements of a buffer are read by their index, and there is no result where an index is not in the
buffer. A reader that takes turns on a buffer ends where a turn has no result.
-/

namespace CoolOnline.Indexed

open Streams

variable {σ α β : Type*}

/-- The elements at the indices from `off` on. -/
def readRange (p : List α) (off n : Nat) : Option (List α) := (List.range' off n).mapM (p[·]?)

/-- There is no result where more is erased than there is. -/
def eraseFirst (n : Nat) (p : List α) : Option (List α) :=
  if n ≤ p.length then some (p.drop n) else none

/-- The state is none once a turn has had no result. -/
def checked (turn : σ → List α → Option (Turn σ α)) : Option σ → List α → Turn (Option σ) α
  | none, _ => .stop none
  | some s, buffer =>
      match turn s buffer with
      | none => .stop none
      | some .wait => .wait
      | some (.next s rest) => .next (some s) rest
      | some (.stop s) => .stop (some s)

/-- A turn reads outside of the buffer where it says, and would end all there. Elsewhere it is the
turn that is not checked. -/
structure Checks (turn : σ → List α → Turn σ α) (turnAt : σ → List α → Option (Turn σ α))
    (outside : σ → List α → Prop) : Prop where
  none : ∀ s buffer, outside s buffer → turnAt s buffer = none
  some : ∀ s buffer, ¬ outside s buffer → turnAt s buffer = some (turn s buffer)
  stops : ∀ s buffer, outside s buffer → ∃ s', turn s buffer = .stop s'
  append : ∀ s buffer more, turn s buffer ≠ .wait →
    (outside s (buffer ++ more) ↔ outside s buffer)

/-- What some turns lead to. -/
inductive TurnsTo (turn : σ → List α → Turn σ α) : σ → List α → σ → List α → Prop
  | refl (s : σ) (buffer : List α) : TurnsTo turn s buffer s buffer
  | next {s s' s'' : σ} {buffer rest left : List α} (hnext : turn s buffer = .next s' rest)
      (hrest : TurnsTo turn s' rest s'' left) : TurnsTo turn s buffer s'' left

/-! ## Reading what is there -/

variable {p : List α} {off n : Nat}

theorem mapM_range'_eq (f : Nat → Option β) (values : List β) (off : Nat)
    (h : ∀ i, i < values.length → f (off + i) = values[i]?) :
    (List.range' off values.length).mapM f = some values := by
  induction values generalizing off with
  | nil => rfl
  | cons value values ih =>
      have hhead := h 0 (Nat.succ_pos _)
      have htail := ih (off + 1) fun i hi => by
        have hnext := h (i + 1) (Nat.succ_lt_succ hi)
        rw [List.getElem?_cons_succ] at hnext
        rw [← hnext, Nat.add_assoc, Nat.add_comm 1 i]
      rw [List.length_cons, List.range'_succ, List.mapM_cons, htail]
      rw [Nat.add_zero, List.getElem?_cons_zero] at hhead
      rw [hhead]
      rfl

theorem readRange_eq (h : off + n ≤ p.length) : readRange p off n = some ((p.drop off).take n) := by
  have hlength : ((p.drop off).take n).length = n := by
    rw [List.length_take, List.length_drop]
    omega
  have hread := mapM_range'_eq (p[·]?) ((p.drop off).take n) off fun i hi => by
    rw [hlength] at hi
    rw [List.getElem?_take, if_pos hi, List.getElem?_drop]
  rw [hlength] at hread
  exact hread

theorem eraseFirst_eq (h : n ≤ p.length) : eraseFirst n p = some (p.drop n) := if_pos h

/-! ## Turns that are checked -/

variable {turn : σ → List α → Turn σ α} {turnAt : σ → List α → Option (Turn σ α)}
  {outside : σ → List α → Prop} {s : σ} {buffer : List α}

theorem checked_of_outside (h : Checks turn turnAt outside) (houtside : outside s buffer) :
    checked turnAt (some s) buffer = .stop none := by
  rw [checked, h.none s buffer houtside]

theorem checked_of_inside (h : Checks turn turnAt outside) (hinside : ¬ outside s buffer) :
    checked turnAt (some s) buffer =
      match turn s buffer with
      | .wait => .wait
      | .next s rest => .next (some s) rest
      | .stop s => .stop (some s) := by
  rw [checked, h.some s buffer hinside]
  cases turn s buffer <;> rfl

theorem exists_of_checked_next (h : Checks turn turnAt outside) {state state' : Option σ}
    {rest : List α} (hnext : checked turnAt state buffer = .next state' rest) :
    ∃ s s', state = some s ∧ state' = some s' ∧ ¬ outside s buffer ∧
      turn s buffer = .next s' rest := by
  cases state with
  | none => cases hnext
  | some s =>
      by_cases houtside : outside s buffer
      case pos =>
        rw [checked_of_outside h houtside] at hnext
        cases hnext
      case neg =>
        rw [checked_of_inside h houtside] at hnext
        cases hturn : turn s buffer with
        | next s' behind =>
            rw [hturn] at hnext
            cases hnext
            exact ⟨s, s', rfl, rfl, houtside, hturn⟩
        | _ =>
            rw [hturn] at hnext
            cases hnext

theorem cases_of_checked_stop (h : Checks turn turnAt outside) {state : Option σ}
    (hstop : checked turnAt (some s) buffer = .stop state) :
    outside s buffer ∧ state = none ∨
      ¬ outside s buffer ∧ ∃ s', state = some s' ∧ turn s buffer = .stop s' := by
  by_cases houtside : outside s buffer
  case pos =>
    rw [checked_of_outside h houtside] at hstop
    cases hstop
    exact .inl ⟨houtside, rfl⟩
  case neg =>
    rw [checked_of_inside h houtside] at hstop
    cases hturn : turn s buffer with
    | stop s' =>
        rw [hturn] at hstop
        cases hstop
        exact .inr ⟨houtside, s', rfl, rfl⟩
    | _ =>
        rw [hturn] at hstop
        cases hstop

theorem wait_of_checked_wait (h : Checks turn turnAt outside)
    (hwait : checked turnAt (some s) buffer = .wait) :
    ¬ outside s buffer ∧ turn s buffer = .wait := by
  by_cases houtside : outside s buffer
  case pos =>
    rw [checked_of_outside h houtside] at hwait
    cases hwait
  case neg =>
    rw [checked_of_inside h houtside] at hwait
    apply And.intro houtside
    cases hturn : turn s buffer with
    | wait => rfl
    | _ =>
        rw [hturn] at hwait
        cases hwait

theorem steady_checked (h : Checks turn turnAt outside) (hsteady : Steady turn) :
    Steady (checked turnAt) := by
  have hkept : ∀ s buffer more, turn s buffer ≠ .wait → ¬ outside s buffer →
      ¬ outside s (buffer ++ more) :=
    fun s buffer more hwait => mt (h.append s buffer more hwait).mp
  apply Steady.mk
  case next =>
    intro state buffer state' rest more hnext
    rcases exists_of_checked_next h hnext with ⟨s, s', rfl, rfl, hinside, hturn⟩
    have hwait : turn s buffer ≠ .wait := by
      rw [hturn]
      rintro ⟨⟩
    rw [checked_of_inside h (hkept s buffer more hwait hinside),
      hsteady.next _ _ _ _ more hturn]
  case stop =>
    intro state buffer state' more hstop
    cases state with
    | none => exact hstop
    | some s =>
        rcases cases_of_checked_stop h hstop with ⟨houtside, rfl⟩ | ⟨hinside, s', rfl, hturn⟩
        · rcases h.stops s buffer houtside with ⟨s', hturn⟩
          have hwait : turn s buffer ≠ .wait := by
            rw [hturn]
            rintro ⟨⟩
          exact checked_of_outside h ((h.append s buffer more hwait).mpr houtside)
        · have hwait : turn s buffer ≠ .wait := by
            rw [hturn]
            rintro ⟨⟩
          rw [checked_of_inside h (hkept s buffer more hwait hinside),
            hsteady.stop _ _ _ more hturn]
  case shorter =>
    intro state buffer state' rest hnext
    rcases exists_of_checked_next h hnext with ⟨s, s', rfl, rfl, -, hturn⟩
    exact hsteady.shorter _ _ _ _ hturn

/-- All turns on a buffer have a result unless one of those that are reached reads outside. -/
theorem isSome_drain_checked (h : Checks turn turnAt outside) (hsteady : Steady turn) (s : σ)
    (buffer : List α) :
    (drain (checked turnAt) (some s) buffer).state.isSome = true ↔
      ∀ s' left, TurnsTo turn s buffer s' left → ¬ outside s' left := by
  refine drain_induction (P := fun state buffer r => ∀ s, state = some s →
    (r.state.isSome = true ↔ ∀ s' left, TurnsTo turn s buffer s' left → ¬ outside s' left))
    (steady_checked h hsteady) ?_ ?_ ?_ (some s) buffer s rfl
  · rintro - buffer hwait s rfl
    rcases wait_of_checked_wait h hwait with ⟨hinside, hturn⟩
    refine ⟨fun _ s' left hreach => ?_, fun _ => rfl⟩
    cases hreach with
    | refl => exact hinside
    | next hnext => cases hturn.symm.trans hnext
  · rintro - buffer state hstop s rfl
    rcases cases_of_checked_stop h hstop with ⟨houtside, rfl⟩ | ⟨hinside, s', rfl, hturn⟩
    · constructor
      · rintro ⟨⟩
      · exact fun hall => absurd houtside (hall s buffer (.refl s buffer))
    · refine ⟨fun _ s' left hreach => ?_, fun _ => rfl⟩
      cases hreach with
      | refl => exact hinside
      | next hnext => cases hturn.symm.trans hnext
  · intro state buffer state' rest r hnext ih s hs
    rcases exists_of_checked_next h hnext with ⟨s, s', rfl, rfl, hinside, hturn⟩
    cases hs
    rw [ih s' rfl]
    constructor
    · intro hall s'' left hreach
      cases hreach with
      | refl => exact hinside
      | next hnext hrest =>
          cases hturn.symm.trans hnext
          exact hall s'' left hrest
    · exact fun hall s'' left hreach => hall s'' left (.next hturn hreach)

/-- So it is for a stream that comes in pieces. -/
theorem isSome_receive_checked (h : Checks turn turnAt outside) (hsteady : Steady turn)
    (hwait : turnAt s [] = some .wait) (pieces : List (List α)) :
    (pieces.foldl (receive (checked turnAt)) ⟨some s, [], false⟩).state.isSome = true ↔
      ∀ s' left, TurnsTo turn s pieces.flatten s' left → ¬ outside s' left := by
  have hsettled : Settled (checked turnAt) ⟨some s, [], false⟩ := .inr (by rw [checked, hwait])
  rw [receive_pieces (steady_checked h hsteady) hsettled]
  exact isSome_drain_checked h hsteady s pieces.flatten

end CoolOnline.Indexed
