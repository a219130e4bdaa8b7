import CoolOnline.Common.Protocol
import CoolOnline.Library.Positions

/-! # Fields of a message

`COOLProtocol::getTokenStringFromMessage` of `common/Protocol.cpp` by positions in the message, with
the positions that it reads.
-/

namespace CoolOnline.COOLProtocol

open Positions

/-- What the function does: it returns true with the value or false, or a position behind the end is
given to `substr`, which throws; with the positions that were read. -/
structure Lookup where
  result : Option (Option Payload)
  reads : List Nat
deriving DecidableEq

/-- The text up to a position. -/
def substrTo (message : Payload) (start : Nat) (stop : Option Nat) : Option Payload :=
  if start ≤ message.length then some ((message.drop start).take (stop.getD message.length - start))
  else none

section

variable (message name : Payload) (behind : Char)

/-- The loop over the occurrences of the name, with what is behind the end of the message. There is
no result when the turns do not suffice. -/
def lookupLoop : Nat → Option Nat → List Nat → Option Lookup
  | _, none, reads => some ⟨some none, reads⟩
  | 0, some _, _ => none
  | turns + 1, some pos, reads =>
      let reads := if pos = 0 then reads else reads ++ [pos - 1]
      let spaceBefore := pos = 0 ∨ message[pos - 1]? = some ' '
      let beg := pos + name.length
      if spaceBefore then
        let reads := reads ++ [beg]
        if message[beg]?.getD behind = '=' then
          some ⟨(substrTo message (beg + 1) (findFirstOf message [' ', '\n'] beg)).map some, reads⟩
        else lookupLoop turns (find message name (pos + name.length)) reads
      else lookupLoop turns (find message name (pos + name.length)) reads

def lookup (turns : Nat) : Option Lookup :=
  if message.length > name.length + 1 then
    lookupLoop message name behind turns (find message name 0) []
  else some ⟨some none, []⟩

/-! ## The first field -/

/-- A token, at the start or after a space, begins with the name and an equals sign. -/
def FieldAt (pos : Nat) : Prop :=
  (pos = 0 ∨ message[pos - 1]? = some ' ') ∧ name ++ ['='] <+: message.drop pos

/-- What follows the equals sign. -/
def valueAt (pos : Nat) : Payload :=
  (message.drop (pos + name.length + 1)).takeWhile fun c => c != ' ' && c != '\n'

/-- The field with the first value, if there is a field. -/
def IsFirstValue (value : Option Payload) : Prop :=
  (value = none ∧ ∀ pos, ¬ FieldAt message name pos) ∨
    ∃ pos, FieldAt message name pos ∧ (∀ before < pos, ¬ FieldAt message name before) ∧
      value = some (valueAt message name pos)

/-- The function returns with the first value, and reads in the message only. -/
def FindsField : Prop :=
  ∃ turns l, lookup message name behind turns = some l ∧
    (∃ value, l.result = some value ∧ IsFirstValue message name value) ∧
    ∀ pos ∈ l.reads, pos < message.length

/-- The message is not just the name and an equals sign, it does not end with the name after a space
without having such a field, and an empty name is only asked for where the message begins with an
equals sign. -/
structure Readable : Prop where
  notAlone : message ≠ name ++ ['=']
  notOpen (before : Payload) (hbefore : before ≠ []) (hmessage : message = before ++ ' ' :: name) :
    ∃ pos, FieldAt message name pos
  named : name = [] → message.length ≤ 1 ∨ message.head? = some '='

end

section

variable {message name : Payload} {behind : Char} {pos : Nat}

/-! ## Occurrences of the name -/

theorem FieldAt.occurs (h : FieldAt message name pos) : name <+: message.drop pos :=
  (List.prefix_append _ _).trans h.2

theorem FieldAt.lt (h : FieldAt message name pos) : pos + name.length < message.length := by
  have hlength := h.2.length_le
  simp only [List.length_append, List.length_singleton, List.length_drop] at hlength
  omega

theorem getElem?_of_occurs (h : name <+: message.drop pos) {i : Nat} (hi : i < name.length) :
    message[pos + i]? = name[i]? := by
  obtain ⟨rest, hrest⟩ := h
  rw [← List.getElem?_drop, ← hrest, List.getElem?_append_left hi]

theorem fieldAt_iff (hoccurs : name <+: message.drop pos) :
    FieldAt message name pos ↔
      (pos = 0 ∨ message[pos - 1]? = some ' ') ∧ message[pos + name.length]? = some '=' := by
  refine and_congr_right fun _ => ?_
  obtain ⟨rest, hrest⟩ := hoccurs
  have hchar : message[pos + name.length]? = rest[0]? := by
    rw [← List.getElem?_drop, ← hrest, List.getElem?_append_right (Nat.le_refl _), Nat.sub_self]
  rw [hchar, ← hrest, List.prefix_append_right_inj]
  cases rest with
  | nil => simp
  | cons c rest => simp [eq_comm]

/-- No token begins inside an occurrence of a name without spaces. -/
theorem not_token_inside (hspace : ' ' ∉ name) (hoccurs : name <+: message.drop pos) {i : Nat}
    (hbefore : pos < i) (hend : i < pos + name.length) :
    ¬ (i = 0 ∨ message[i - 1]? = some ' ') := by
  intro h
  have hchar : message[i - 1]? = some ' ' := h.resolve_left (by omega)
  have hsame := getElem?_of_occurs hoccurs (i := i - 1 - pos) (by omega)
  rw [show pos + (i - 1 - pos) = i - 1 by omega, hchar] at hsame
  exact hspace (List.mem_of_getElem? hsame.symm)

section

variable {P : Nat → Prop} {start : Nat}

/-- Behind an occurrence the search for what only tokens are goes on where the name ends. -/
theorem none_of_occurs (hspace : ' ' ∉ name) (hoccurs : name <+: message.drop pos)
    (htoken : ∀ i, P i → i = 0 ∨ message[i - 1]? = some ' ') (hnot : ¬ P pos)
    (hbefore : ∀ i < pos, ¬ P i) : ∀ i < pos + name.length, ¬ P i := by
  intro i hi
  rcases Nat.lt_trichotomy i pos with hlt | heq | hgt
  · exact hbefore i hlt
  · rw [heq]
    exact hnot
  · exact fun h => not_token_inside hspace hoccurs hgt hi (htoken i h)

/-- Up to the next occurrence there is nothing that begins with the name. -/
theorem none_of_find (hname : ∀ i, P i → name <+: message.drop i) (hbefore : ∀ i < start, ¬ P i)
    (hfind : find message name start = some pos) : ∀ i < pos, ¬ P i := by
  intro i hi h
  by_cases hstart : i < start
  · exact hbefore i hstart h
  · exact (find_eq_some hfind).2.2.2 i (Nat.le_of_not_lt hstart) hi (hname i h)

theorem none_of_find_none (hname : ∀ i, P i → name <+: message.drop i)
    (hin : ∀ i, P i → i + name.length ≤ message.length) (hbefore : ∀ i < start, ¬ P i)
    (hfind : find message name start = none) (i : Nat) : ¬ P i := by
  intro h
  by_cases hstart : i < start
  · exact hbefore i hstart h
  · have hle : i ≤ message.length := (Nat.le_add_right i _).trans (hin i h)
    exact find_eq_none hfind (Nat.le_of_not_lt hstart) hle (hname i h)

end

/-- The value of a field. -/
theorem substrTo_eq (hfield : FieldAt message name pos) :
    substrTo message (pos + name.length + 1) (findFirstOf message [' ', '\n'] (pos + name.length)) =
      some (valueAt message name pos) := by
  have hlt := hfield.lt
  have hequals := ((fieldAt_iff hfield.occurs).mp hfield).2
  rw [findFirstOf_succ hequals (by simp), substrTo, if_pos (by omega), take_findFirstOf]
  simp only [valueAt, List.mem_cons, List.not_mem_nil, or_false, not_or]
  congr 2
  funext c
  simp [bne, beq_eq_decide]

/-! ## The search -/

/-- A field that the message ends in front of. -/
def OpenAt (message name : Payload) (pos : Nat) : Prop :=
  (pos = 0 ∨ message[pos - 1]? = some ' ') ∧ name <+: message.drop pos ∧
    pos + name.length = message.length

/-- How a search without a name at the very end of the message ends, and that one with such a name
and without a field reads behind the end. -/
structure SearchEnds (message name : Payload) (l : Lookup) : Prop where
  finds (h : (∃ pos, FieldAt message name pos) ∨ ∀ pos, ¬ OpenAt message name pos) :
    (∃ value, l.result = some value ∧ IsFirstValue message name value) ∧
      ∀ pos ∈ l.reads, pos < message.length
  reads (h : ∀ pos, ¬ FieldAt message name pos) (hopen : ∃ pos, OpenAt message name pos) :
    message.length ∈ l.reads

/-- Up to `start` there is no field, and no name at the very end. -/
structure Passed (message name : Payload) (start : Nat) : Prop where
  noField (i : Nat) (hi : i < start) : ¬ FieldAt message name i
  noOpen (i : Nat) (hi : i < start) : ¬ OpenAt message name i

theorem Passed.find {start : Nat} (h : Passed message name start)
    (hfind : find message name start = some pos) : Passed message name pos :=
  ⟨none_of_find (fun _ => FieldAt.occurs) h.noField hfind,
    none_of_find (fun _ hopen => hopen.2.1) h.noOpen hfind⟩

theorem Passed.next (h : Passed message name pos) (hspace : ' ' ∉ name)
    (hoccurs : name <+: message.drop pos) (hfield : ¬ FieldAt message name pos)
    (hopen : ¬ OpenAt message name pos) : Passed message name (pos + name.length) :=
  ⟨none_of_occurs hspace hoccurs (fun _ hfield => hfield.1) hfield h.noField,
    none_of_occurs hspace hoccurs (fun _ hopen => hopen.1) hopen h.noOpen⟩

/-- A search that finds no more occurrence. -/
theorem Passed.ends {start : Nat} {reads : List Nat} (h : Passed message name start)
    (hfind : Positions.find message name start = none)
    (hreads : ∀ pos ∈ reads, pos < message.length) :
    SearchEnds message name ⟨some none, reads⟩ := by
  have hnone : ∀ pos, ¬ FieldAt message name pos :=
    none_of_find_none (fun _ => FieldAt.occurs) (fun _ hfield => hfield.lt.le) h.noField hfind
  have hnoOpen : ∀ pos, ¬ OpenAt message name pos :=
    none_of_find_none (fun _ hopen => hopen.2.1) (fun _ hopen => hopen.2.2.le) h.noOpen hfind
  exact ⟨fun _ => ⟨⟨none, rfl, .inl ⟨rfl, hnone⟩⟩, hreads⟩,
    fun _ hopen => absurd hopen (not_exists.mpr hnoOpen)⟩

/-- A search that comes to the name at the very end. -/
theorem OpenAt.ends {l : Lookup} (h : Passed message name pos) (hopen : OpenAt message name pos)
    (hreads : message.length ∈ l.reads) : SearchEnds message name l := by
  refine ⟨fun hfinds => ?_, fun _ _ => hreads⟩
  cases hfinds with
  | inl hfield =>
      obtain ⟨i, hfield⟩ := hfield
      have hlt := hfield.lt
      have hend := hopen.2.2
      exact absurd hfield (h.noField i (by omega))
  | inr hnone => exact absurd hopen (hnone pos)

theorem lookupLoop_ends (hname : name ≠ []) (hspace : ' ' ∉ name) (behind : Char)
    {turns start : Nat} (hturns : message.length < start + turns) {reads : List Nat}
    (hreads : ∀ pos ∈ reads, pos < message.length) (hpassed : Passed message name start) :
    ∃ l, lookupLoop message name behind turns (find message name start) reads = some l ∧
      SearchEnds message name l := by
  have hlength := List.length_pos_iff.mpr hname
  induction turns generalizing start reads with
  | zero =>
      cases hfind : find message name start with
      | none => exact ⟨_, rfl, hpassed.ends hfind hreads⟩
      | some pos =>
          have hfound := find_eq_some hfind
          omega
  | succ turns ih =>
      cases hfind : find message name start with
      | none => exact ⟨_, rfl, hpassed.ends hfind hreads⟩
      | some pos =>
          obtain ⟨hstart, hend, hoccurs, -⟩ := find_eq_some hfind
          have hat := hpassed.find hfind
          have hbefore : ∀ i ∈ (if pos = 0 then reads else reads ++ [pos - 1]),
              i < message.length := by
            split
            case isTrue => exact hreads
            case isFalse =>
              exact List.forall_mem_append.mpr ⟨hreads, List.forall_mem_singleton.mpr (by omega)⟩
          rw [lookupLoop]
          generalize (if pos = 0 then reads else reads ++ [pos - 1]) = readsBefore at hbefore ⊢
          dsimp only
          by_cases hblank : pos = 0 ∨ message[pos - 1]? = some ' '
          · rw [if_pos hblank]
            cases hchar : message[pos + name.length]? with
            | none =>
                -- the name is at the very end
                have hsame : pos + name.length = message.length := by
                  have hle := List.getElem?_eq_none_iff.mp hchar
                  omega
                have hopen : OpenAt message name pos := ⟨hblank, hoccurs, hsame⟩
                by_cases hequals : behind = '='
                · rw [Option.getD_none, if_pos hequals]
                  exact ⟨_, rfl, hopen.ends hat (by simp [hsame])⟩
                · have hlast : find message name (pos + name.length) = none := by
                    cases hnext : find message name (pos + name.length) with
                    | none => rfl
                    | some next =>
                        have hmore := find_eq_some hnext
                        omega
                  rw [Option.getD_none, if_neg hequals, hlast]
                  exact ⟨⟨some none, _⟩, by cases turns <;> rfl, hopen.ends hat (by simp [hsame])⟩
            | some c =>
                have hlt := (List.getElem?_eq_some_iff.mp hchar).1
                have hinside : ∀ i ∈ readsBefore ++ [pos + name.length], i < message.length :=
                  List.forall_mem_append.mpr ⟨hbefore, List.forall_mem_singleton.mpr hlt⟩
                by_cases hequals : c = '='
                · have hfield : FieldAt message name pos := by
                    rw [hequals] at hchar
                    exact (fieldAt_iff hoccurs).mpr ⟨hblank, hchar⟩
                  rw [Option.getD_some, if_pos hequals, substrTo_eq hfield]
                  refine ⟨_, rfl, fun _ => ⟨?_, hinside⟩, fun hnone => absurd hfield (hnone pos)⟩
                  exact ⟨_, rfl, .inr ⟨pos, hfield, hat.noField, rfl⟩⟩
                · have hfield : ¬ FieldAt message name pos := by
                    intro h
                    have hsame : some c = some '=' :=
                      hchar.symm.trans ((fieldAt_iff hoccurs).mp h).2
                    exact hequals (Option.some.inj hsame)
                  have hopen : ¬ OpenAt message name pos := fun h => by
                    have hsame := h.2.2
                    omega
                  rw [Option.getD_some, if_neg hequals]
                  exact ih (by omega) hinside (hat.next hspace hoccurs hfield hopen)
          · rw [if_neg hblank]
            have hfield : ¬ FieldAt message name pos := fun h => hblank h.1
            have hopen : ¬ OpenAt message name pos := fun h => hblank h.1
            exact ih (by omega) hbefore (hat.next hspace hoccurs hfield hopen)

/-- More turns change nothing. -/
theorem lookupLoop_add {turns : Nat} {start : Option Nat} {reads : List Nat} {l : Lookup}
    (h : lookupLoop message name behind turns start reads = some l) (more : Nat) :
    lookupLoop message name behind (turns + more) start reads = some l := by
  induction turns generalizing start reads with
  | zero =>
      cases start with
      | none =>
          rw [← h]
          cases 0 + more <;> rfl
      | some pos => cases h
  | succ turns ih =>
      cases start with
      | none =>
          rw [← h]
          cases turns + 1 + more <;> rfl
      | some pos =>
          rw [Nat.add_right_comm, lookupLoop]
          rw [lookupLoop] at h
          generalize (if pos = 0 then reads else reads ++ [pos - 1]) = readsBefore at h ⊢
          dsimp only at h ⊢
          split_ifs at h ⊢
          · exact h
          · exact ih h
          · exact ih h

theorem passed_zero : Passed message name 0 :=
  ⟨fun i hi => absurd hi (Nat.not_lt_zero i), fun i hi => absurd hi (Nat.not_lt_zero i)⟩

theorem lookup_ends (hname : name ≠ []) (hspace : ' ' ∉ name) (behind : Char)
    (hlength : message.length > name.length + 1) :
    ∃ l, lookup message name behind (message.length + 1) = some l ∧ SearchEnds message name l := by
  have hreads : ∀ pos ∈ ([] : List Nat), pos < message.length := by simp
  rw [lookup, if_pos hlength]
  exact lookupLoop_ends hname hspace behind (by omega) hreads passed_zero

theorem FindsField.ends (h : FindsField message name behind) (hname : name ≠ [])
    (hspace : ' ' ∉ name) (hlength : message.length > name.length + 1) :
    ∃ l, SearchEnds message name l ∧ message.length ∉ l.reads := by
  obtain ⟨turns, l, hl, -, hreads⟩ := h
  obtain ⟨l', hl', hends⟩ := lookup_ends hname hspace behind hlength
  rw [lookup, if_pos hlength] at hl hl'
  have hsame := lookupLoop_add hl (message.length + 1)
  rw [Nat.add_comm, lookupLoop_add hl' turns] at hsame
  cases hsame
  exact ⟨_, hends, fun hmem => Nat.lt_irrefl _ (hreads _ hmem)⟩

/-- The search for an empty name stays where it is. -/
theorem lookupLoop_nil (hhead : message.head? ≠ some '=') (hmessage : message ≠ [])
    (turns : Nat) (reads : List Nat) :
    lookupLoop message [] behind turns (some 0) reads = none := by
  induction turns generalizing reads with
  | zero => rfl
  | succ turns ih =>
      have hchar : ¬ message[0]?.getD behind = '=' := by
        cases message with
        | nil => exact absurd rfl hmessage
        | cons c rest => simpa using hhead
      rw [lookupLoop]
      simp only [true_or, if_true, List.length_nil, Nat.add_zero, hchar, if_false, find_nil_zero]
      exact ih _

theorem fieldAt_zero : FieldAt message name 0 ↔ name ++ ['='] <+: message := by
  simp [FieldAt]

theorem fieldAt_nil : FieldAt message [] 0 ↔ message.head? = some '=' := by
  rw [fieldAt_zero]
  cases message with
  | nil => simp
  | cons c rest => simp [eq_comm]

/-- A message too short for the search has a field only if it is the field without a value. -/
theorem fieldAt_of_short (hlength : message.length ≤ name.length + 1)
    (h : FieldAt message name pos) : message = name ++ ['='] := by
  have hlt := h.lt
  have hzero : pos = 0 := by omega
  rw [hzero, fieldAt_zero] at h
  exact (h.eq_of_length_le (by simpa using hlength)).symm

/-- The name at the very end, after a space. -/
theorem OpenAt.eq_append (h : OpenAt message name pos) (hpos : 1 < pos) :
    ∃ before, before ≠ [] ∧ message = before ++ ' ' :: name := by
  obtain ⟨hblank, hoccurs, hend⟩ := h
  have hchar : message[pos - 1]? = some ' ' := hblank.resolve_left (by omega)
  have hrest : message.drop pos = name :=
    (hoccurs.eq_of_length_le (by rw [List.length_drop]; omega)).symm
  refine ⟨message.take (pos - 1), ?_, ?_⟩
  · rw [ne_eq, List.take_eq_nil_iff, not_or]
    refine ⟨by omega, fun hnil => ?_⟩
    rw [hnil] at hchar
    cases hchar
  · obtain ⟨hlt, hget⟩ := List.getElem?_eq_some_iff.mp hchar
    rw [← hrest, ← hget]
    conv_lhs => rw [← List.take_append_drop (pos - 1) message, List.drop_eq_getElem_cons hlt]
    rw [Nat.sub_add_cancel (by omega)]

theorem openAt_append (before : Payload) :
    OpenAt (before ++ ' ' :: name) name (before.length + 1) := by
  refine ⟨.inr (by simp), ?_, by simp; omega⟩
  simp

theorem FindsField.readable (h : FindsField message name behind) (hspace : ' ' ∉ name) :
    Readable message name := by
  have hnamed (hname : name = []) : message.length ≤ 1 ∨ message.head? = some '=' := by
    subst hname
    by_contra hnot
    obtain ⟨hlong, hhead⟩ := not_or.mp hnot
    obtain ⟨turns, l, hl, -⟩ := h
    have hmessage : message ≠ [] := by
      intro hnil
      simp [hnil] at hlong
    rw [lookup, if_pos (by simpa using hlong), find_nil_zero, lookupLoop_nil hhead hmessage] at hl
    cases hl
  refine ⟨fun halone => ?_, fun before hbefore hmessage => ?_, hnamed⟩
  · obtain ⟨turns, l, hl, hvalue, -⟩ := h
    obtain ⟨value, hresult, hfirst⟩ := hvalue
    have hfield : FieldAt message name 0 := fieldAt_zero.mpr (by rw [halone])
    rw [lookup, if_neg (by simp [halone])] at hl
    cases hl
    cases hresult
    cases hfirst with
    | inl hnone => exact hnone.2 0 hfield
    | inr hsome =>
        obtain ⟨pos, -, -, hvalue⟩ := hsome
        cases hvalue
  · have hlong : message.length > name.length + 1 := by
      have hpos := List.length_pos_iff.mpr hbefore
      simp only [hmessage, List.length_append, List.length_cons]
      omega
    by_cases hname : name = []
    · have hhead := (hnamed hname).resolve_left (by simp [hname] at hlong; omega)
      exact ⟨0, hname ▸ fieldAt_nil.mpr hhead⟩
    · obtain ⟨l, hends, hnot⟩ := h.ends hname hspace hlong
      by_contra hnone
      have hopen : OpenAt message name (before.length + 1) := hmessage ▸ openAt_append before
      exact hnot (hends.reads (not_exists.mp hnone) ⟨_, hopen⟩)

theorem Readable.findsField (h : Readable message name) (hspace : ' ' ∉ name) (behind : Char) :
    FindsField message name behind := by
  by_cases hlong : message.length > name.length + 1
  · by_cases hname : name = []
    · subst hname
      have hhead : message.head? = some '=' := (h.named rfl).resolve_left (by simpa using hlong)
      have hfield : FieldAt message [] 0 := fieldAt_nil.mpr hhead
      have hchar : message[0]?.getD behind = '=' := by
        cases message with
        | nil => cases hhead
        | cons c rest => simpa using hhead
      have hvalue := substrTo_eq hfield
      refine ⟨1, ⟨some (some (valueAt message [] 0)), [0]⟩, ?_,
        ⟨_, rfl, .inr ⟨0, hfield, ?_, rfl⟩⟩, ?_⟩
      · rw [lookup, if_pos hlong, find_nil_zero, lookupLoop]
        simp only [true_or, if_true, List.length_nil, Nat.add_zero, hchar] at hvalue ⊢
        rw [hvalue]
        rfl
      · exact fun i hi => absurd hi (Nat.not_lt_zero i)
      · intro i hi
        rw [List.mem_singleton.mp hi]
        simp only [List.length_nil] at hlong
        omega
    · obtain ⟨l, hl, hends⟩ := lookup_ends hname hspace behind hlong
      have hfinds : (∃ pos, FieldAt message name pos) ∨ ∀ pos, ¬ OpenAt message name pos := by
        by_contra hnot
        obtain ⟨hnone, hopen⟩ := not_or.mp hnot
        obtain ⟨pos, hopen⟩ := not_forall_not.mp hopen
        have hend := hopen.2.2
        obtain ⟨before, hbefore, hmessage⟩ := hopen.eq_append (by omega)
        exact hnone (h.notOpen before hbefore hmessage)
      obtain ⟨hvalue, hreads⟩ := hends.finds hfinds
      exact ⟨_, l, hl, hvalue, hreads⟩
  · refine ⟨0, ⟨some none, []⟩, by rw [lookup, if_neg hlong], ⟨none, rfl, .inl ⟨rfl, ?_⟩⟩, by simp⟩
    exact fun pos hfield => h.notAlone (fieldAt_of_short (Nat.le_of_not_lt hlong) hfield)

end

/-! ## The search on a list -/

section

variable {name : Payload}

/-- The character in front of a position that is behind a part of the message. -/
theorem blank_iff (front rest : Payload) :
    (front.getLast? = none ∨ front.getLast? = some ' ') ↔
      front.length = 0 ∨ (front ++ rest)[front.length - 1]? = some ' ' := by
  rw [List.getLast?_eq_getElem?]
  cases front with
  | nil => simp
  | cons c front =>
      rw [List.getElem?_append_left (by simp)]
      simp

/-- `searchToken` finds the first field behind the part of the message that has been passed. -/
theorem isFirstValue_searchToken (hspace : ' ' ∉ name) (rest : Payload) {front : Payload}
    {skip : Nat} (hpassed : ∀ i < front.length + skip, ¬ FieldAt (front ++ rest) name i) :
    IsFirstValue (front ++ rest) name (searchToken name front.getLast? skip rest) := by
  induction rest generalizing front skip with
  | nil =>
      refine .inl ⟨by cases skip <;> rfl, fun i hfield => ?_⟩
      have hlt := hfield.lt
      rw [List.append_nil] at hlt
      exact hpassed i (by omega) hfield
  | cons c rest ih =>
      have hmessage : front ++ c :: rest = front ++ [c] ++ rest := by simp
      have hlast : some c = (front ++ [c]).getLast? := by simp
      have hnext (skip : Nat)
          (hpassed : ∀ i < front.length + 1 + skip, ¬ FieldAt (front ++ c :: rest) name i) :
          IsFirstValue (front ++ c :: rest) name (searchToken name (some c) skip rest) := by
        rw [hlast]
        rw [hmessage] at hpassed ⊢
        exact ih fun i hi => hpassed i (by simpa using hi)
      cases skip with
      | succ skip =>
          rw [searchToken]
          exact hnext skip fun i hi => hpassed i (by omega)
      | zero =>
          have hrest : (front ++ c :: rest).drop front.length = c :: rest := List.drop_left
          rw [searchToken]
          by_cases hoccurs : name.isPrefixOf (c :: rest) = true
          · have hat : name <+: (front ++ c :: rest).drop front.length := by
              rw [hrest]
              exact List.isPrefixOf_iff_prefix.mp hoccurs
            have hiff := fieldAt_iff hat
            have hchar : (front ++ c :: rest)[front.length + name.length]? =
                ((c :: rest).drop name.length).head? := by
              rw [List.head?_drop, List.getElem?_append_right (Nat.le_add_right _ _),
                Nat.add_sub_cancel_left]
            rw [← blank_iff, hchar] at hiff
            rw [if_pos hoccurs]
            dsimp only
            split
            case isTrue hfield =>
              refine .inr ⟨front.length, hiff.mpr hfield, hpassed, ?_⟩
              rw [valueAt, Nat.add_assoc, ← List.drop_drop, hrest, List.tail_drop]
            case isFalse hfield =>
              have hnot := mt hiff.mp hfield
              refine hnext _ fun i hi => ?_
              by_cases hinside : i < front.length + name.length
              · exact none_of_occurs hspace hat (fun _ h => h.1) hnot hpassed i hinside
              · -- the name is empty
                rw [show i = front.length by omega]
                exact hnot
          · rw [if_neg hoccurs]
            refine hnext 0 fun i hi hfield => ?_
            rcases Nat.lt_succ_iff_lt_or_eq.mp hi with hlt | heq
            · exact hpassed i hlt hfield
            · have hname := hfield.occurs
              rw [heq, hrest] at hname
              exact hoccurs (List.isPrefixOf_iff_prefix.mpr hname)

/-- The function as it is on lists finds the first field. -/
theorem isFirstValue_getTokenStringFromMessage {message : Payload} (hspace : ' ' ∉ name)
    (halone : message ≠ name ++ ['=']) :
    IsFirstValue message name (getTokenStringFromMessage message name) := by
  rw [getTokenStringFromMessage]
  split
  case isTrue =>
    have hpassed : ∀ i < ([] : Payload).length + 0, ¬ FieldAt ([] ++ message) name i := by simp
    exact isFirstValue_searchToken hspace message hpassed
  case isFalse hlong =>
    refine .inl ⟨rfl, fun i hfield => halone ?_⟩
    exact fieldAt_of_short (Nat.le_of_not_lt hlong) hfield

end

/-- The field of a message is found, and nothing else is read, exactly for readable messages. -/
theorem findsField_iff {message name : Payload} (hspace : ' ' ∉ name) (behind : Char) :
    FindsField message name behind ↔ Readable message name :=
  ⟨fun h => h.readable hspace, fun h => h.findsField hspace behind⟩

theorem findsField_id : FindsField "render id=5 x".toList "id".toList '\x00' := by
  refine (findsField_iff (by decide) _).mpr ⟨by decide, fun before _ _ => ⟨7, ?_⟩, by decide⟩
  exact ⟨.inr (by decide), by decide⟩

/-- A message that is only the field with an empty value, one that ends with the name, and an empty
name. -/
theorem not_findsField :
    ¬ FindsField "id=".toList "id".toList '\x00' ∧
      ¬ FindsField "render id".toList "id".toList '\x00' ∧
      ¬ FindsField "id".toList [] '\x00' := by
  refine ⟨fun h => ?_, fun h => ?_, fun h => ?_⟩
  · exact (h.readable (by decide)).notAlone (by decide)
  · obtain ⟨pos, hfield⟩ := (h.readable (by decide)).notOpen "render".toList (by decide) (by decide)
    have hequals : '=' ∈ "render id".toList :=
      List.mem_of_mem_drop (hfield.2.subset (by simp))
    exact absurd hequals (by decide)
  · exact absurd ((h.readable (by decide)).named rfl) (by decide)

end CoolOnline.COOLProtocol
