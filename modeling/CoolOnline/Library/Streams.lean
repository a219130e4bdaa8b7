import Mathlib.Data.List.Basic

/-! # Reading a stream in pieces

A reader keeps what has arrived in a buffer and takes turns on it: a turn takes something off the
front, waits for more to arrive, or gives up, after which everything is ignored. When a turn that
was taken does not depend on what is behind, it does not matter how the stream is cut.
-/

namespace CoolOnline.Streams

variable {σ α : Type*}

/-- The first `n` elements, once they are there, and the rest. -/
def takeExact (n : Nat) (l : List α) : Option (List α × List α) :=
  if l.length < n then none else some (l.take n, l.drop n)

theorem takeExact_eq_some_iff {n : Nat} {l part rest : List α} :
    takeExact n l = some (part, rest) ↔ part.length = n ∧ l = part ++ rest := by
  constructor
  · intro h
    rw [takeExact] at h
    split at h
    · cases h
    · cases h
      exact ⟨by rw [List.length_take]; omega, (List.take_append_drop n l).symm⟩
  · rintro ⟨rfl, rfl⟩
    have hlength : ¬ (part ++ rest).length < part.length := by
      rw [List.length_append]
      omega
    rw [takeExact, if_neg hlength, List.take_left, List.drop_left]

theorem takeExact_of_length {n : Nat} {part : List α} (rest : List α) (h : part.length = n) :
    takeExact n (part ++ rest) = some (part, rest) :=
  takeExact_eq_some_iff.mpr ⟨h, rfl⟩

/-! ## Readers of a front -/

section Front

variable {β γ : Type*}

/-- What is read of the front of a list does not depend on what is behind it, and the rest is left. -/
structure ReadsFront (read : List α → Option (β × List α)) : Prop where
  append : ∀ {l b rest}, read l = some (b, rest) →
    ∀ more, read (l ++ more) = some (b, rest ++ more)
  suffix : ∀ {l b rest}, read l = some (b, rest) → rest <:+ l

theorem takeExact_readsFront (n : Nat) : ReadsFront fun l : List α => takeExact n l where
  append h more := by
    obtain ⟨hlength, rfl⟩ := takeExact_eq_some_iff.mp h
    exact takeExact_eq_some_iff.mpr ⟨hlength, List.append_assoc _ _ more⟩
  suffix h := by
    obtain ⟨-, rfl⟩ := takeExact_eq_some_iff.mp h
    exact List.suffix_append _ _

theorem ReadsFront.some (b : β) : ReadsFront fun l : List α => some (b, l) where
  append h more := by
    cases h
    rfl
  suffix h := by
    cases h
    exact List.suffix_rfl

theorem ReadsFront.bind {read : List α → Option (β × List α)}
    {next : β → List α → Option (γ × List α)} (h : ReadsFront read)
    (hnext : ∀ b, ReadsFront (next b)) :
    ReadsFront fun l => (read l).bind fun (b, rest) => next b rest where
  append hread more := by
    obtain ⟨⟨b, rest⟩, hb, hread⟩ := Option.bind_eq_some_iff.mp hread
    rw [h.append hb more, Option.bind_some]
    exact (hnext b).append hread more
  suffix hread := by
    obtain ⟨⟨b, rest⟩, hb, hread⟩ := Option.bind_eq_some_iff.mp hread
    exact ((hnext b).suffix hread).trans (h.suffix hb)

theorem ReadsFront.map {read : List α → Option (β × List α)} (f : β → γ) (h : ReadsFront read) :
    ReadsFront fun l => (read l).map fun (b, rest) => (f b, rest) where
  append hread more := by
    obtain ⟨⟨b, rest⟩, hb, hpair⟩ := Option.map_eq_some_iff.mp hread
    cases hpair
    rw [h.append hb more]
    rfl
  suffix hread := by
    obtain ⟨⟨b, rest⟩, hb, hpair⟩ := Option.map_eq_some_iff.mp hread
    cases hpair
    exact h.suffix hb

end Front

/-! ## Turns -/

inductive Turn (σ α : Type*)
  | wait
  | next (s : σ) (rest : List α)
  | stop (s : σ)

structure Reader (σ α : Type*) where
  state : σ
  buffer : List α
  ignoring : Bool

variable (turn : σ → List α → Turn σ α)

/-- Turns until one waits or gives up. -/
def drainFor : Nat → σ → List α → Reader σ α
  | 0, s, buffer => ⟨s, buffer, false⟩
  | fuel + 1, s, buffer =>
      match turn s buffer with
      | .wait => ⟨s, buffer, false⟩
      | .next s rest => drainFor fuel s rest
      | .stop s => ⟨s, [], true⟩

/-- Every turn takes one element at least. -/
def drain (s : σ) (buffer : List α) : Reader σ α := drainFor turn (buffer.length + 1) s buffer

def receive (r : Reader σ α) (piece : List α) : Reader σ α :=
  if r.ignoring then r else drain turn r.state (r.buffer ++ piece)

/-- What a turn does is not changed by what arrives later. -/
structure Steady : Prop where
  next : ∀ s buffer s' rest more, turn s buffer = .next s' rest →
    turn s (buffer ++ more) = .next s' (rest ++ more)
  stop : ∀ s buffer s' more, turn s buffer = .stop s' → turn s (buffer ++ more) = .stop s'
  shorter : ∀ s buffer s' rest, turn s buffer = .next s' rest → rest.length < buffer.length

/-- There is no turn to take. -/
def Settled (r : Reader σ α) : Prop := r.ignoring = true ∨ turn r.state r.buffer = .wait

variable {turn} {s s' : σ} {buffer rest : List α}

theorem drainFor_eq (hsteady : Steady turn) {fuel : Nat} (hfuel : buffer.length < fuel) :
    drainFor turn fuel s buffer = drain turn s buffer := by
  induction hlength : buffer.length using Nat.strongRecOn generalizing s buffer fuel with
  | ind length ih =>
      obtain ⟨turns, rfl⟩ : ∃ turns, fuel = turns + 1 := ⟨fuel - 1, by omega⟩
      rw [drain, drainFor, drainFor]
      cases hturn : turn s buffer with
      | wait => rfl
      | stop s' => rfl
      | next s' rest =>
          have hshorter := hsteady.shorter _ _ _ _ hturn
          simp only
          rw [ih rest.length (by omega) (by omega) rfl, ih rest.length (by omega) (by omega) rfl]

theorem drain_of_wait (h : turn s buffer = .wait) : drain turn s buffer = ⟨s, buffer, false⟩ := by
  rw [drain, drainFor, h]

theorem drain_of_stop (h : turn s buffer = .stop s') : drain turn s buffer = ⟨s', [], true⟩ := by
  rw [drain, drainFor, h]

theorem drain_of_next (hsteady : Steady turn) (h : turn s buffer = .next s' rest) :
    drain turn s buffer = drain turn s' rest := by
  rw [drain, drainFor, h]
  exact drainFor_eq hsteady (hsteady.shorter _ _ _ _ h)

/-- What holds where a reader waits or gives up, and is kept by each turn before that, holds after
all turns. -/
theorem drain_induction (hsteady : Steady turn) {P : σ → List α → Reader σ α → Prop}
    (hwait : ∀ s buffer, turn s buffer = .wait → P s buffer ⟨s, buffer, false⟩)
    (hstop : ∀ s buffer s', turn s buffer = .stop s' → P s buffer ⟨s', [], true⟩)
    (hnext : ∀ s buffer s' rest r, turn s buffer = .next s' rest → P s' rest r → P s buffer r)
    (s : σ) (buffer : List α) : P s buffer (drain turn s buffer) := by
  induction hlength : buffer.length using Nat.strongRecOn generalizing s buffer with
  | ind length ih =>
      cases hturn : turn s buffer with
      | wait =>
          rw [drain_of_wait hturn]
          exact hwait s buffer hturn
      | stop s' =>
          rw [drain_of_stop hturn]
          exact hstop s buffer s' hturn
      | next s' rest =>
          have hshorter := hsteady.shorter _ _ _ _ hturn
          rw [drain_of_next hsteady hturn]
          exact hnext s buffer s' rest _ hturn (ih rest.length (by omega) s' rest rfl)

theorem settled_drain (hsteady : Steady turn) : Settled turn (drain turn s buffer) :=
  drain_induction (P := fun _ _ r => Settled turn r) hsteady (fun _ _ h => .inr h)
    (fun _ _ _ _ => .inl rfl) (fun _ _ _ _ _ _ h => h) s buffer

/-- Taking turns on a part first changes nothing. -/
theorem drain_append (hsteady : Steady turn) (more : List α) :
    drain turn s (buffer ++ more) = receive turn (drain turn s buffer) more := by
  refine drain_induction (P := fun s buffer r =>
    drain turn s (buffer ++ more) = receive turn r more) hsteady ?_ ?_ ?_ s buffer
  · intro s buffer _
    rfl
  · intro s buffer s' hturn
    rw [drain_of_stop (hsteady.stop _ _ _ more hturn)]
    rfl
  · intro s buffer s' rest r hturn ih
    rw [drain_of_next hsteady (hsteady.next _ _ _ _ more hturn), ih]

theorem receive_append (hsteady : Steady turn) (r : Reader σ α) (piece more : List α) :
    receive turn (receive turn r piece) more = receive turn r (piece ++ more) := by
  by_cases hignoring : r.ignoring = true
  · rw [receive, receive, receive, if_pos hignoring, if_pos hignoring, if_pos hignoring]
  · have hone : receive turn r piece = drain turn r.state (r.buffer ++ piece) := by
      rw [receive, if_neg hignoring]
    have hboth : receive turn r (piece ++ more) =
        drain turn r.state (r.buffer ++ piece ++ more) := by
      rw [receive, if_neg hignoring, List.append_assoc]
    rw [hone, hboth]
    exact (drain_append hsteady more).symm

theorem settled_receive (hsteady : Steady turn) {r : Reader σ α} (piece : List α) :
    Settled turn (receive turn r piece) := by
  by_cases hignoring : r.ignoring = true
  · rw [receive, if_pos hignoring]
    exact .inl hignoring
  · rw [receive, if_neg hignoring]
    exact settled_drain hsteady

theorem receive_nil {r : Reader σ α} (h : Settled turn r) : receive turn r [] = r := by
  cases h with
  | inl hignoring => rw [receive, if_pos hignoring]
  | inr hwait =>
      by_cases hignoring : r.ignoring = true
      · rw [receive, if_pos hignoring]
      · rw [receive, if_neg hignoring, List.append_nil, drain_of_wait hwait]
        cases r
        simp_all

/-- The cuts of a stream do not matter. -/
theorem receive_pieces (hsteady : Steady turn) {r : Reader σ α} (h : Settled turn r)
    (pieces : List (List α)) : pieces.foldl (receive turn) r = receive turn r pieces.flatten := by
  induction pieces generalizing r with
  | nil => exact (receive_nil h).symm
  | cons piece pieces ih =>
      rw [List.foldl_cons, ih (settled_receive hsteady piece), receive_append hsteady,
        List.flatten_cons]

end CoolOnline.Streams
