import Mathlib.Algebra.Order.Ring.Int
import CoolOnline.Common.HexUtil

/-! # Clipboard data

`ClipboardData` of `common/Clipboard.hpp`, and what `ChildSession::getClipboard` writes for it: a
type, a size in hexadecimal digits and the content, for each of the types.
-/

namespace CoolOnline.Clipboard

open HexUtil

/-! ## Streams -/

/-- An input stream; one that is not good does not give anything. -/
structure InStream where
  data : Payload
  pos : Nat
  eofbit : Bool
  failbit : Bool

namespace InStream

def ofData (data : Payload) : InStream := ⟨data, 0, false, false⟩

variable (s : InStream)

def rest : Payload := s.data.drop s.pos

def good : Bool := !s.eofbit && !s.failbit

/-- Up to a line break, or to the end. -/
def getline : Payload × InStream :=
  if s.good then
    match Text.cutLine s.rest with
    | some (line, _) => (line, { s with pos := s.pos + (line.length + 1) })
    | none =>
        (s.rest, { s with
          pos := s.data.length
          eofbit := true
          failbit := s.rest.isEmpty })
  else ([], { s with failbit := true })

def read (len : Nat) : Payload × InStream :=
  if s.good then
    let short : Bool := s.rest.length < len
    (s.rest.take len, { s with
      pos := s.pos + (s.rest.take len).length
      eofbit := short
      failbit := short })
  else ([], { s with failbit := true })

/-- It is not at the end then, but it stays failed, and where it was. -/
def seekBeg : InStream := { s with eofbit := false, pos := if s.failbit then s.pos else 0 }

end InStream

/-! ## The format -/

structure ClipboardData where
  mimeTypes : List Payload
  content : List Payload
deriving DecidableEq, Repr

inductive ReadError
  /-- `ParseError`, for a content that is too short. -/
  | parse
  /-- There is no string of this size. -/
  | length
deriving DecidableEq, Repr

def strtollLimit : Int := 2 ^ 63

/-- `strtoll` with base 16. -/
def strtoll16 (text : Payload) : Int :=
  let text := text.dropWhile Text.isSpace
  let negative := text.head? == some '-'
  let text := if negative || text.head? == some '+' then text.tail else text
  let hasPrefix := text.head? == some '0' && (text[1]? == some 'x' || text[1]? == some 'X') &&
    text[2]?.any isHexDigit
  let digits := (if hasPrefix then text.drop 2 else text).takeWhile isHexDigit
  if negative then max (-strtollLimit) (-(hexValue digits : Int))
  else min (strtollLimit - 1) (hexValue digits)

/-- As an `uint64_t`. -/
def lengthOf (hexLen : Payload) : Nat := (strtoll16 hexLen % 2 ^ 64).toNat

namespace ClipboardData

def new : ClipboardData := ⟨[], []⟩

/-- The `while` of `read`, for so many rounds. -/
def readLoop : Nat → InStream → ClipboardData → Option (Except ReadError ClipboardData)
  | 0, _, _ => none
  | rounds + 1, s, data =>
      if s.eofbit then some (.ok data)
      else
        let (mime, s) := s.getline
        let (hexLen, s) := s.getline
        if mime ≠ [] ∧ hexLen ≠ [] ∧ s.failbit = false then
          let len := lengthOf hexLen
          if 2 ^ 63 ≤ len then some (.error .length)
          else
            let (content, s) := s.read len
            if s.failbit then some (.error .parse)
            else
              readLoop rounds s.getline.2
                ⟨data.mimeTypes ++ [mime], data.content ++ [content]⟩
        else readLoop rounds s data

def isOwnFormat (s : InStream) : Bool :=
  if s.eofbit then false
  else
    let (mime, s) := s.getline
    let (hexLen, _) := s.getline
    mime ≠ [] && hexLen ≠ [] && lengthOf hexLen ≠ 0

/-- The content of the first entry with the type, if there is one. -/
def findType (data : ClipboardData) (mime : Payload) : Option Payload :=
  ((data.mimeTypes.zip data.content).find? fun entry => entry.1 == mime).map Prod.snd

end ClipboardData

/-- What `getClipboard` writes if no types are asked for. -/
def clipboardOutput (entries : List (Payload × Payload)) : Payload :=
  entries.flatMap fun entry =>
    entry.1 ++ '\n' :: (Nat.toDigits 16 entry.2.length ++ '\n' :: (entry.2 ++ ['\n']))

def doctype : Payload := "<!DOCTYPE html>".toList
def textHtml : Payload := "text/html".toList

/-- What `setClipboard` hands on: HTML as it is, or the entries. -/
def setClipboard (rounds : Nat) (file : Payload) :
    Option (Except ReadError (List (Payload × Payload))) :=
  let (firstLine, s) := (InStream.ofData file).getline
  let s := s.seekBeg
  if doctype.isPrefixOf firstLine then some (.ok [(textHtml, s.rest)])
  else
    (ClipboardData.readLoop rounds s .new).map fun r =>
      r.map fun data => data.mimeTypes.zip data.content

/-! ## Numbers -/

theorem head?_of_hexDigits {digits : Payload} (h : ∀ c ∈ digits, isHexDigit c = true) {c : Char}
    (hc : isHexDigit c = false) : (digits.head? == some c) = false := by
  cases digits with
  | nil => rfl
  | cons d digits =>
      have hd := h d List.mem_cons_self
      have hne : d ≠ c := by
        rintro rfl
        rw [hd] at hc
        cases hc
      simpa using hne

theorem strtoll16_toDigits {n : Nat} (h : n < 2 ^ 63) : strtoll16 (Nat.toDigits 16 n) = n := by
  obtain ⟨hvalue, hdigits⟩ := hexValue_toDigits n
  generalize Nat.toDigits 16 n = digits at hvalue hdigits
  have hspace : digits.dropWhile Text.isSpace = digits := by
    cases digits with
    | nil => rfl
    | cons d digits =>
        exact List.dropWhile_cons_of_neg
          (by simp [isSpace_of_isHexDigit (hdigits d List.mem_cons_self)])
  have hminus : (digits.head? == some '-') = false := head?_of_hexDigits hdigits (by decide)
  have hplus : (digits.head? == some '+') = false := head?_of_hexDigits hdigits (by decide)
  have hsecond (c : Char) (hc : isHexDigit c = false) : (digits[1]? == some c) = false := by
    cases hd : digits[1]? with
    | none => rfl
    | some d =>
        have hdigit := hdigits d (List.mem_of_getElem? hd)
        have hne : d ≠ c := by
          rintro rfl
          rw [hdigit] at hc
          cases hc
        simpa using hne
  have hall : digits.takeWhile isHexDigit = digits := by
    have hspan : (digits ++ []).takeWhile isHexDigit = digits :=
      (Text.span_append hdigits (by simp)).1
    rwa [List.append_nil] at hspan
  have hmin : min (strtollLimit - 1) (n : Int) = n := by
    simp only [strtollLimit]
    omega
  simp only [strtoll16, hspace, hminus, hplus, hsecond 'x' (by decide), hsecond 'X' (by decide),
    Bool.or_self, Bool.and_false, Bool.false_and, Bool.false_eq_true, if_false, hall, hvalue, hmin]

theorem lengthOf_toDigits {n : Nat} (h : n < 2 ^ 63) : lengthOf (Nat.toDigits 16 n) = n := by
  rw [lengthOf, strtoll16_toDigits h]
  omega

/-! ## Reading -/

namespace InStream

variable {s : InStream} {line part later : Payload}

/-- A good stream with this to come. -/
def Reads (s : InStream) (text : Payload) : Prop := s.good = true ∧ s.rest = text

theorem Reads.open {text : Payload} (h : s.Reads text) : s.eofbit = false ∧ s.failbit = false := by
  have hgood := h.1
  simpa only [good, Bool.and_eq_true, Bool.not_eq_true'] using hgood

theorem getline_of_not_good (h : s.good = false) :
    s.getline = ([], { s with failbit := true }) := by
  simp only [InStream.getline, h, Bool.false_eq_true, if_false]

theorem reads_ofData (data : Payload) : Reads (ofData data) data := ⟨rfl, rfl⟩

theorem rest_drop (s : InStream) (n : Nat) :
    rest { s with pos := s.pos + n } = s.rest.drop n := List.drop_drop.symm

theorem Reads.getline (h : s.Reads (line ++ '\n' :: later)) (hline : '\n' ∉ line) :
    s.getline.1 = line ∧ s.getline.2.Reads later := by
  obtain ⟨hgood, hrest⟩ := h
  have hnext : rest { s with pos := s.pos + (line.length + 1) } = later := by
    rw [rest_drop, hrest, List.append_cons]
    exact List.drop_left' (by simp)
  simp only [InStream.getline, hgood, if_true, hrest, Text.cutLine_append hline]
  exact ⟨trivial, hgood, hnext⟩

theorem Reads.read (h : s.Reads (part ++ later)) :
    (s.read part.length).1 = part ∧ (s.read part.length).2.Reads later := by
  obtain ⟨hgood, hrest⟩ := h
  have hshort : ¬ (part ++ later).length < part.length := by simp
  have hnext : rest { s with pos := s.pos + part.length } = later := by
    rw [rest_drop, hrest, List.drop_left]
  simp only [InStream.read, hgood, if_true, hrest, List.take_left, hshort, decide_false]
  exact ⟨trivial, rfl, hnext⟩

/-- At the end there is no line, and the stream says so. -/
theorem Reads.getline_nil (h : s.Reads []) :
    s.getline = ([], { s with
      pos := s.data.length
      eofbit := true
      failbit := true }) := by
  obtain ⟨hgood, hrest⟩ := h
  simp [InStream.getline, hgood, hrest, Text.cutLine]

end InStream

open InStream ClipboardData

/-- An entry that can be written: the type is a line, and the content is a string. -/
def IsEntry (entry : Payload × Payload) : Prop :=
  entry.1 ≠ [] ∧ '\n' ∉ entry.1 ∧ entry.2.length < 2 ^ 63

instance decidableIsEntry (entry : Payload × Payload) : Decidable (IsEntry entry) :=
  inferInstanceAs (Decidable (_ ∧ _))

theorem newline_not_mem_toDigits (n : Nat) : '\n' ∉ Nat.toDigits 16 n := by
  intro hmem
  have hdigit := (hexValue_toDigits n).2 '\n' hmem
  cases hdigit

theorem readLoop_output {entries : List (Payload × Payload)} (h : ∀ entry ∈ entries, IsEntry entry)
    {s : InStream} (hs : s.Reads (clipboardOutput entries)) (data : ClipboardData) {rounds : Nat}
    (hrounds : entries.length + 2 ≤ rounds) : readLoop rounds s data =
      some (.ok ⟨data.mimeTypes ++ entries.map Prod.fst, data.content ++ entries.map Prod.snd⟩) := by
  induction entries generalizing s data rounds with
  | nil =>
      obtain ⟨rounds, rfl⟩ : ∃ r, rounds = r + 2 := ⟨rounds - 2, by simp at hrounds; omega⟩
      have hend : s.getline = _ := InStream.Reads.getline_nil hs
      simp only [readLoop, hs.open.1, Bool.false_eq_true, if_false, hend, ne_eq, not_true_eq_false,
        false_and, getline_of_not_good, good, Bool.not_true, Bool.false_and, if_true, List.map_nil,
        List.append_nil]
  | cons entry entries ih =>
      obtain ⟨rounds, rfl⟩ : ∃ r, rounds = r + 1 := ⟨rounds - 1, by simp at hrounds; omega⟩
      obtain ⟨⟨hmime, hline, hlength⟩, hlater⟩ := List.forall_mem_cons.mp h
      rw [clipboardOutput, List.flatMap_cons, List.append_assoc, List.cons_append,
        List.append_assoc, List.cons_append, List.append_assoc, List.singleton_append,
        ← clipboardOutput] at hs
      obtain ⟨hfirst, hs₁⟩ := hs.getline hline
      obtain ⟨hsecond, hs₂⟩ := hs₁.getline (newline_not_mem_toDigits _)
      obtain ⟨hcontent, hs₃⟩ := hs₂.read
      rw [← List.nil_append ('\n' :: clipboardOutput entries)] at hs₃
      obtain ⟨-, hs₄⟩ := hs₃.getline List.not_mem_nil
      have hfits : ¬ 2 ^ 63 ≤ entry.2.length := by omega
      have hrest := ih hlater hs₄ ⟨data.mimeTypes ++ [entry.1], data.content ++ [entry.2]⟩
        (by simp at hrounds; omega)
      simp only [readLoop, hs.open.1, Bool.false_eq_true, if_false, hfirst, hsecond, ne_eq, hmime,
        Nat.toDigits_ne_nil, not_false_eq_true, hs₂.open.2, and_self, if_true,
        lengthOf_toDigits hlength, hfits, hcontent, hs₃.open.2, hrest, List.map_cons,
        List.append_assoc, List.singleton_append]

/-! ## The end of reading -/

/-- A stream is at its end, or it is good and has less to come than this. -/
def Advanced (n : Nat) (s : InStream) : Prop :=
  s.eofbit = true ∨ s.good = true ∧ s.rest.length < n

theorem getline_advanced {s : InStream} {n : Nat} (h : Advanced n s) : Advanced n s.getline.2 := by
  rcases h with heof | ⟨hgood, hless⟩
  · left
    simp [getline_of_not_good, good, heof]
  · unfold InStream.getline
    simp only [hgood, if_true]
    split
    · right
      refine ⟨hgood, ?_⟩
      rw [rest_drop, List.length_drop]
      omega
    · exact .inl rfl

/-- A line takes something out of a good stream. -/
theorem getline_advanced_self {s : InStream} (h : s.good = true) :
    Advanced s.rest.length s.getline.2 := by
  unfold InStream.getline
  simp only [h, if_true]
  split
  · rename_i hline
    right
    have hpos : 0 < s.rest.length := by
      apply List.length_pos_of_ne_nil
      intro hnil
      rw [hnil] at hline
      cases hline
    refine ⟨h, ?_⟩
    rw [rest_drop, List.length_drop]
    omega
  · exact .inl rfl

theorem read_advanced {s : InStream} {n len : Nat} (h : Advanced n s) : Advanced n (s.read len).2 := by
  rcases h with heof | ⟨hgood, hless⟩
  · left
    simp [InStream.read, good, heof]
  · unfold InStream.read
    simp only [hgood, if_true]
    by_cases hshort : s.rest.length < len
    · exact .inl (by simp [hshort])
    · right
      refine ⟨by simp [good, hshort], ?_⟩
      have hrest := congrArg List.length (rest_drop s (s.rest.take len).length)
      rw [List.length_drop] at hrest
      exact (hrest.le.trans (Nat.sub_le _ _)).trans_lt hless

theorem readLoop_ends {n : Nat} {s : InStream} (h : Advanced n s) (data : ClipboardData) :
    ∃ rounds r, readLoop rounds s data = some r := by
  induction n generalizing s data with
  | zero =>
      rcases h with heof | ⟨-, hless⟩
      · exact ⟨1, _, by simp only [readLoop, heof, if_true]; rfl⟩
      · cases hless
  | succ n ih =>
      rcases h with heof | ⟨hgood, hless⟩
      · exact ⟨1, _, by simp only [readLoop, heof, if_true]; rfl⟩
      · have hopen : s.eofbit = false := by
          simp only [good, Bool.and_eq_true, Bool.not_eq_true'] at hgood
          exact hgood.1
        have hfirst : Advanced n s.getline.2 := by
          rcases getline_advanced_self hgood with heof | ⟨hgood', hless'⟩
          · exact .inl heof
          · exact .inr ⟨hgood', by omega⟩
        have hsecond := getline_advanced hfirst
        -- what comes after one round is the rest of the loop, or an error
        have hround (rounds : Nat) := readLoop.eq_2 s data rounds
        simp only [hopen, Bool.false_eq_true, if_false] at hround
        split at hround
        · split at hround
          · exact ⟨1, _, hround 0⟩
          · split at hround
            · exact ⟨1, _, hround 0⟩
            · obtain ⟨rounds, r, hr⟩ := ih (getline_advanced (read_advanced hsecond)) _
              exact ⟨rounds + 1, r, (hround rounds).trans hr⟩
        · obtain ⟨rounds, r, hr⟩ := ih hsecond data
          exact ⟨rounds + 1, r, (hround rounds).trans hr⟩

/-- A stream that has failed and is not at its end is read forever. -/
theorem readLoop_failed {s : InStream} (heof : s.eofbit = false) (hfail : s.failbit = true)
    (data : ClipboardData) (rounds : Nat) : readLoop rounds s data = none := by
  induction rounds with
  | zero => rfl
  | succ rounds ih =>
      have hgood : s.good = false := by simp [good, hfail]
      have hsame : s.getline = ([], s) := by rw [getline_of_not_good hgood, ← hfail]
      simp only [readLoop, heof, Bool.false_eq_true, if_false, hsame, ne_eq, not_true_eq_false,
        false_and, ih]

theorem seekBeg_getline {file : Payload} (h : file ≠ []) :
    (InStream.ofData file).getline.2.seekBeg = .ofData file := by
  have hempty : file.isEmpty = false := by simpa using h
  simp only [InStream.getline, good, InStream.ofData, Bool.not_false, Bool.and_self, if_true]
  split <;> simp [seekBeg, rest, hempty]

/-- `setClipboard` comes to an end on every file but the empty one, which it reads forever. -/
theorem setClipboard_ends_iff (file : Payload) :
    (∃ rounds r, setClipboard rounds file = some r) ↔ file ≠ [] := by
  constructor
  · rintro ⟨rounds, r, hr⟩ rfl
    have hloop : readLoop rounds (InStream.ofData []).getline.2.seekBeg .new = none :=
      readLoop_failed rfl rfl _ _
    have hline : doctype.isPrefixOf (InStream.ofData []).getline.1 = false := rfl
    simp only [setClipboard, hline, Bool.false_eq_true, if_false, hloop, Option.map_none] at hr
    cases hr
  · intro hne
    unfold setClipboard
    simp only [seekBeg_getline hne]
    split
    · exact ⟨0, _, rfl⟩
    · obtain ⟨rounds, r, hr⟩ := readLoop_ends (n := file.length + 1) (s := .ofData file)
        (.inr ⟨rfl, Nat.lt_succ_self _⟩) .new
      exact ⟨rounds, _, by rw [hr]; rfl⟩

theorem find?_map_snd (entries : List (Payload × Payload)) (mime : Payload) :
    (entries.find? fun entry => entry.1 == mime).map Prod.snd = entries.lookup mime := by
  induction entries with
  | nil => rfl
  | cons entry entries ih =>
      rw [List.find?_cons, List.lookup_cons, Bool.beq_comm (α := Payload)]
      cases mime == entry.1
      · exact ih
      · rfl

def twoEntries : List (Payload × Payload) :=
  [("text/plain".toList, "a\nb".toList), ("text/html".toList, [])]

end CoolOnline.Clipboard
