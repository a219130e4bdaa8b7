import CoolOnline.Library.Search

/-! # Input streams

A stream over data that is at hand, as a `std::istream` over a file or a string is: a position, and
whether reading has failed, after which it neither reads nor seeks until that is cleared.
-/

namespace CoolOnline

structure InputStream (α : Type*) where
  data : List α
  pos : Nat
  failed : Bool

namespace InputStream

variable {α : Type*}

def ofData (data : List α) : InputStream α := ⟨data, 0, false⟩

def rest (s : InputStream α) : List α := s.data.drop s.pos

/-- To get less than is asked for is a failure. -/
def read (s : InputStream α) (n : Nat) : List α × InputStream α :=
  if s.failed then ([], s)
  else (s.rest.take n, ⟨s.data, s.pos + (s.rest.take n).length, decide (s.rest.length < n)⟩)

def clear (s : InputStream α) : InputStream α := { s with failed := false }

/-- There is no position in front of the data or behind its end. -/
def seekTo (s : InputStream α) (target : Int) : InputStream α :=
  if s.failed then s
  else if 0 ≤ target ∧ target ≤ s.data.length then { s with pos := target.toNat }
  else { s with failed := true }

def seekBeg (s : InputStream α) (offset : Nat) : InputStream α := s.seekTo offset

def seekCur (s : InputStream α) (offset : Int) : InputStream α := s.seekTo (s.pos + offset)

/-- What a copy of the stream to its end writes. -/
def copyRest (s : InputStream α) : List α := if s.failed then [] else s.rest

/-- The stream can be read, and this comes next. -/
structure At (s : InputStream α) (text : List α) : Prop where
  ready : s.failed = false
  inside : s.pos ≤ s.data.length
  rest_eq : s.rest = text

variable {s : InputStream α} {text before after : List α}

@[simp] theorem read_data (s : InputStream α) (n : Nat) : (s.read n).2.data = s.data := by
  rw [read]
  split <;> rfl

theorem read_of_ready (h : s.failed = false) (n : Nat) :
    s.read n = (s.rest.take n,
      ⟨s.data, s.pos + (s.rest.take n).length, decide (s.rest.length < n)⟩) := by
  rw [read, if_neg (by rw [h]; simp)]

/-- From its beginning a stream is read as if it had not been read. -/
theorem seekBeg_clear (s : InputStream α) : s.clear.seekBeg 0 = ofData s.data := by
  rw [seekBeg, seekTo, if_neg (by simp [clear])]
  rw [if_pos (by simp)]
  rfl

theorem at_ofData (data : List α) : At (ofData data) data := ⟨rfl, Nat.zero_le _, rfl⟩

theorem At.read (h : At s text) (n : Nat) : (s.read n).1 = text.take n := by
  rw [InputStream.read, h.ready]
  exact congrArg (List.take n) h.rest_eq

theorem At.copyRest (h : At s text) : s.copyRest = text := by
  rw [InputStream.copyRest, h.ready]
  exact h.rest_eq

/-- Behind what comes next comes the rest. -/
theorem At.advance (h : At s (before ++ after)) :
    At ⟨s.data, s.pos + before.length, false⟩ after := by
  have hlength := congrArg List.length h.rest_eq
  rw [rest, List.length_drop, List.length_append] at hlength
  have hinside := h.inside
  have hdrop : s.data.drop (s.pos + before.length) = after := by
    rw [← List.drop_drop]
    exact (congrArg (List.drop before.length) h.rest_eq).trans List.drop_left
  exact ⟨rfl, show s.pos + before.length ≤ s.data.length by omega, hdrop⟩

theorem At.seekCur (h : At s (before ++ after)) : At (s.seekCur before.length) after := by
  have hinside : s.pos + before.length ≤ s.data.length := h.advance.inside
  have htarget : ((s.pos : Int) + before.length).toNat = s.pos + before.length := by omega
  have hseek : s.seekCur before.length = ⟨s.data, s.pos + before.length, false⟩ := by
    rw [InputStream.seekCur, seekTo, if_neg (by rw [h.ready]; simp), if_pos (by omega), htarget,
      h.ready]
  exact hseek ▸ h.advance

end InputStream

end CoolOnline
