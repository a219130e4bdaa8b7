import CoolOnline.Common.Protocol
import CoolOnline.Library.History

/-! # Buffers

`Buffer` of `net/Buffer.hpp`: data with an offset in front of it, so that what has been read need
not be moved at once. It is compared with a plain list of bytes.
-/

namespace CoolOnline

structure Buffer where
  offset : Nat
  buffer : Payload
deriving DecidableEq

namespace Buffer

def new : Buffer := ⟨0, []⟩

section

variable (b : Buffer)

def size : Nat := b.buffer.length - b.offset

def empty : Bool := b.offset == b.buffer.length

/-- Pointers and iterators are positions in the underlying data. -/
def data : Nat := b.offset

def getBlock : Option Nat := if !b.empty then some b.offset else none

def getBlockSize : Nat := b.size

def begin : Nat := b.offset

def endIterator : Nat := b.buffer.length

/-- `operator[]`. -/
def charAt (index : Nat) : Option Char := b.buffer[b.offset + index]?

/-- What stays allocated is left out. -/
def resetOffset : Buffer := { b with offset := 0 }

def eraseFirst (len : Nat) : Buffer :=
  if len ≤ 0 then b
  else
    let len := min len b.size
    -- avoid regular shuffling down larger chunks of data
    if b.buffer.length > 16384 ∧ len < b.size ∧ b.offset < 16384 * 64 ∧ b.size > 512 then
      { b with offset := b.offset + len }
    else ({ b with buffer := b.buffer.drop (b.offset + len) }).resetOffset

/-- Nothing for a range that is not in the data. -/
def append (data : Payload) (len : Int) : Option Buffer :=
  if 0 ≤ len ∧ len ≤ data.length then some { b with buffer := b.buffer ++ data.take len.toNat }
  else none

/-- The size of the string becomes an `int`. -/
def appendString (s : Payload) : Option Buffer := b.append s (toInt32 s.length)

def clear : Buffer := ({ b with buffer := [] }).resetOffset

/-- With the iterator that is returned. -/
def erase (first last : Nat) : Buffer × Nat :=
  if first = b.begin then
    let b := b.eraseFirst (last - b.begin)
    (b, b.begin)
  else ({ b with buffer := b.buffer.take first ++ b.buffer.drop last }, first)

end

/-- What is done to a buffer; the ends of a range are counted from the begin. -/
inductive Op
  | append (data : Payload) (len : Int)
  | appendString (s : Payload)
  | eraseFirst (len : Nat)
  | erase (first last : Nat)
  | clear

def step (b : Buffer) : Op → Option Buffer
  | .append data len => b.append data len
  | .appendString s => b.appendString s
  | .eraseFirst len => some (b.eraseFirst len)
  | .erase first last => some (b.erase (b.begin + first) (b.begin + last)).1
  | .clear => some b.clear

/-! ## A list of bytes -/

/-- The same on a plain list. -/
def apply (bytes : Payload) : Op → Payload
  | .append data len => bytes ++ data.take len.toNat
  | .appendString s => bytes ++ s
  | .eraseFirst len => bytes.drop len
  | .erase first last => bytes.take first ++ bytes.drop last
  | .clear => []

/-- What is erased is there, and what is appended is in the data that is given. -/
def Op.Valid (bytes : Payload) : Op → Prop
  | .append data len => 0 ≤ len ∧ len ≤ data.length
  | .appendString _ => True
  | .eraseFirst len => len ≤ bytes.length
  | .erase first last => first ≤ last ∧ last ≤ bytes.length
  | .clear => True

def ValidRun : Payload → List Op → Prop
  | _, [] => True
  | bytes, op :: ops => op.Valid bytes ∧ ValidRun (apply bytes op) ops

/-- A string whose size is an `int`. -/
def Op.FitsInt : Op → Prop
  | .appendString s => s.length < 2 ^ 31
  | _ => True

/-- All that refers to the content of the buffer refers to the bytes. -/
structure Behaves (b : Buffer) (bytes : Payload) : Prop where
  offset_le : b.offset ≤ b.buffer.length
  size : b.size = bytes.length
  empty : b.empty = true ↔ bytes = []
  data : (b.buffer.drop b.data).take b.size = bytes
  getBlock : b.getBlock = if bytes = [] then none else some b.data
  getBlockSize : b.getBlockSize = bytes.length
  iterators : (b.buffer.take b.endIterator).drop b.begin = bytes
  charAt (index : Nat) (hindex : index < bytes.length) : b.charAt index = bytes[index]?

/-- In every state of a run the buffer is the list of bytes. -/
def BehavesAlong (ops : List Op) : Prop :=
  ∀ done, done <+: ops → ∃ b, run step new done = some b ∧ b.Behaves (done.foldl apply [])

/-! ## The offset -/

/-- The bytes are those behind the offset. -/
structure Holds (b : Buffer) (bytes : Payload) : Prop where
  offset_le : b.offset ≤ b.buffer.length
  drop : b.buffer.drop b.offset = bytes

variable {b : Buffer} {bytes : Payload}

theorem Holds.size (h : b.Holds bytes) : b.size = bytes.length := by
  rw [Buffer.size, ← h.drop, List.length_drop]

theorem Holds.behaves (h : b.Holds bytes) : b.Behaves bytes := by
  have hempty : b.empty = true ↔ bytes = [] := by
    have hle := h.offset_le
    rw [Buffer.empty, beq_iff_eq, ← h.drop, List.drop_eq_nil_iff]
    omega
  refine ⟨h.offset_le, h.size, hempty, ?data, ?getBlock, h.size, ?iterators, ?charAt⟩
  case data =>
    rw [h.size, data, h.drop, List.take_length]
  case getBlock =>
    by_cases hnil : bytes = []
    · simp [Buffer.getBlock, hempty.mpr hnil, hnil]
    · have hmore : b.empty = false := by
        rw [← Bool.not_eq_true, hempty]
        exact hnil
      simp [Buffer.getBlock, hmore, hnil, data]
  case iterators =>
    rw [endIterator, List.take_length, begin, h.drop]
  case charAt =>
    intro index _
    rw [Buffer.charAt, ← h.drop, List.getElem?_drop]

theorem holds_new : new.Holds [] := ⟨Nat.le_refl _, rfl⟩

theorem Holds.clear : b.clear.Holds [] := ⟨Nat.le_refl _, rfl⟩

theorem Holds.append (h : b.Holds bytes) {data : Payload} {len : Int} (hlen : 0 ≤ len)
    (hdata : len ≤ data.length) :
    ∃ b', b.append data len = some b' ∧ b'.Holds (bytes ++ data.take len.toNat) := by
  refine ⟨_, if_pos ⟨hlen, hdata⟩, ?_, ?_⟩
  · exact Nat.le_trans h.offset_le (by simp)
  · rw [List.drop_append_of_le_length h.offset_le, h.drop]

theorem Holds.eraseFirst (h : b.Holds bytes) {len : Nat} (hlen : len ≤ bytes.length) :
    (b.eraseFirst len).Holds (bytes.drop len) := by
  have hle := h.offset_le
  have hsize := h.size
  have hmin : min len b.size = len := by
    rw [hsize]
    exact Nat.min_eq_left hlen
  rw [Buffer.eraseFirst]
  split
  case isTrue hzero =>
    rw [Nat.le_zero.mp hzero, List.drop_zero]
    exact h
  case isFalse =>
    simp only [hmin]
    split
    case isTrue =>
      refine ⟨?_, ?_⟩
      · show b.offset + len ≤ b.buffer.length
        rw [← hsize, Buffer.size] at hlen
        omega
      · show b.buffer.drop (b.offset + len) = bytes.drop len
        rw [← List.drop_drop, h.drop]
    case isFalse =>
      refine ⟨Nat.zero_le _, ?_⟩
      show (b.buffer.drop (b.offset + len)).drop 0 = bytes.drop len
      rw [List.drop_zero, ← List.drop_drop, h.drop]

/-- The iterator that is returned is where the range was. -/
theorem Holds.erase (h : b.Holds bytes) {first last : Nat} (hfirst : first ≤ last)
    (hlast : last ≤ bytes.length) :
    (b.erase (b.begin + first) (b.begin + last)).1.Holds (bytes.take first ++ bytes.drop last) ∧
      (b.erase (b.begin + first) (b.begin + last)).2 =
        (b.erase (b.begin + first) (b.begin + last)).1.begin + first := by
  have hle := h.offset_le
  have hsize := h.size
  rw [Buffer.size] at hsize
  rw [Buffer.erase]
  split
  case isTrue hbegin =>
    have hzero : first = 0 := by omega
    rw [hzero, Nat.add_sub_cancel_left]
    exact ⟨by simpa using h.eraseFirst hlast, rfl⟩
  case isFalse =>
    refine ⟨⟨?_, ?_⟩, rfl⟩
    · show b.offset ≤ (b.buffer.take (b.offset + first) ++ b.buffer.drop (b.offset + last)).length
      simp only [List.length_append, List.length_take, List.length_drop]
      omega
    · show (b.buffer.take (b.offset + first) ++ b.buffer.drop (b.offset + last)).drop b.offset = _
      rw [List.drop_append_of_le_length (by rw [List.length_take]; omega), List.drop_take,
        Nat.add_sub_cancel_left, h.drop, ← List.drop_drop, h.drop]

/-! ## Runs -/

theorem toInt32_length {s : Payload} (h : s.length < 2 ^ 31) : toInt32 s.length = s.length :=
  toInt32_of_isInt32 ⟨by omega, by omega⟩

theorem Holds.step (h : b.Holds bytes) {op : Op} (hvalid : op.Valid bytes) (hfits : op.FitsInt) :
    ∃ b', b.step op = some b' ∧ b'.Holds (apply bytes op) := by
  cases op with
  | append data len => exact h.append hvalid.1 hvalid.2
  | appendString s =>
      have happend : ∃ b', b.append s s.length = some b' ∧
          b'.Holds (bytes ++ s.take (s.length : Int).toNat) :=
        h.append (by omega) (Int.le_refl _)
      rw [Int.toNat_natCast, List.take_length] at happend
      rwa [Buffer.step, appendString, toInt32_length hfits]
  | eraseFirst len => exact ⟨_, rfl, h.eraseFirst hvalid⟩
  | erase first last => exact ⟨_, rfl, (h.erase hvalid.1 hvalid.2).1⟩
  | clear => exact ⟨_, rfl, Holds.clear⟩

theorem Holds.run {ops : List Op} (hvalid : ValidRun bytes ops) (hfits : ∀ op ∈ ops, op.FitsInt)
    (h : b.Holds bytes) :
    ∃ b', run Buffer.step b ops = some b' ∧ b'.Holds (ops.foldl apply bytes) := by
  induction ops generalizing b bytes with
  | nil => exact ⟨b, rfl, h⟩
  | cons op ops ih =>
      obtain ⟨b₁, hstep, h₁⟩ := h.step hvalid.1 (hfits op List.mem_cons_self)
      obtain ⟨b', hrun, h'⟩ := ih hvalid.2 (fun op hop => hfits op (List.mem_cons_of_mem _ hop)) h₁
      exact ⟨b', (run_cons_eq_some _).mpr ⟨b₁, hstep, hrun⟩, h'⟩

theorem ValidRun.of_prefix {done ops : List Op} (hvalid : ValidRun bytes ops)
    (hdone : done <+: ops) : ValidRun bytes done := by
  induction done generalizing bytes ops with
  | nil => trivial
  | cons op done ih =>
      cases ops with
      | nil => cases List.prefix_nil.mp hdone
      | cons op' ops =>
          obtain ⟨rfl, hrest⟩ := List.cons_prefix_cons.mp hdone
          exact ⟨hvalid.1, ih hvalid.2 hrest⟩

/-- A string of another size than is appended makes the buffer a shorter one. -/
theorem Behaves.fitsInt (h : b.Behaves bytes) {s : Payload} {b' : Buffer}
    (hstep : b.appendString s = some b') (h' : b'.Behaves (bytes ++ s)) : s.length < 2 ^ 31 := by
  rw [appendString, append] at hstep
  split at hstep
  case isFalse => cases hstep
  case isTrue hlen =>
    cases hstep
    have hle := h.offset_le
    have hsize := h.size
    have hsize' := h'.size
    have hint := (isInt32_toInt32 s.length).2
    simp only [Buffer.size, List.length_append, List.length_take] at hsize hsize'
    omega

theorem BehavesAlong.fitsInt {ops : List Op} (hall : BehavesAlong ops) {op : Op} (hop : op ∈ ops) :
    op.FitsInt := by
  cases op with
  | appendString s =>
      obtain ⟨before, after, rfl⟩ := List.append_of_mem hop
      obtain ⟨b, hrun, hb⟩ := hall before (List.prefix_append _ _)
      obtain ⟨b', hrun', hb'⟩ := hall (before ++ [.appendString s])
        ⟨after, by rw [List.append_assoc, List.singleton_append]⟩
      rw [List.foldl_append] at hb'
      rw [run_append, hrun, Option.bind_some] at hrun'
      obtain ⟨b₁, hstep, hsame⟩ := (run_cons_eq_some _).mp hrun'
      cases hsame
      exact hb.fitsInt hstep hb'
  | _ => trivial

/-- A buffer is a list of bytes as long as the sizes of the strings that are appended fit. -/
theorem behavesAlong_iff {ops : List Op} (hvalid : ValidRun [] ops) :
    BehavesAlong ops ↔ ∀ op ∈ ops, op.FitsInt := by
  constructor
  · intro hall op hop
    exact hall.fitsInt hop
  · intro hfits done hdone
    obtain ⟨b, hrun, hb⟩ := Holds.run (hvalid.of_prefix hdone)
      (fun op hop => hfits op (hdone.subset hop)) holds_new
    exact ⟨b, hrun, hb.behaves⟩

theorem behavesAlong_smallStrings :
    BehavesAlong [.appendString "GET / HTTP".toList, .eraseFirst 4, .erase 1 2,
      .append "/1.1".toList 2, .erase 0 1] := by
  refine (behavesAlong_iff ?valid).mpr ?fits
  case valid => simp [ValidRun, Op.Valid, apply]
  case fits => simp [Op.FitsInt]

/-- Of a string of this size one byte is appended. -/
theorem not_behavesAlong_longString :
    ValidRun [] [.appendString (List.replicate (2 ^ 32 + 1) 'a')] ∧
      ¬ BehavesAlong [.appendString (List.replicate (2 ^ 32 + 1) 'a')] := by
  refine ⟨⟨trivial, trivial⟩, fun hall => ?_⟩
  have hfits := hall.fitsInt (List.mem_singleton_self _)
  rw [Op.FitsInt, List.length_replicate] at hfits
  omega

end Buffer

end CoolOnline
