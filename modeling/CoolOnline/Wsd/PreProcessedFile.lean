import CoolOnline.Common.Protocol
import CoolOnline.Library.Positions

/-! # Preprocessed files

`PreProcessedFile` of `wsd/FileServerUtil.cpp`: a file is parsed into segments, data and variables,
and put together again with values for variables. Beside the segments the model keeps the positions
at which the data is indexed.
-/

namespace CoolOnline.PreProcessedFile

open Positions

inductive Segment
  | data (text : Payload)
  | plainVariable (name : Payload)
  | commentedVariable (name : Payload)
deriving DecidableEq

def isNameChar (c : Char) : Bool := c.isAlpha || c == '_'

/-- `substr` by the end. -/
def slice (data : Payload) (start stop : ℕ) : Payload := (data.drop start).take (stop - start)

/-! ## Turns -/

/-- What a turn of the loop does: break, continue, or take a variable. -/
inductive Turn
  | done
  | skip (pos : ℕ)
  | take (start stop : ℕ) (segment : Segment)

/-- A turn with the positions that it indexes. -/
structure Turned where
  reads : List ℕ
  turn : Turn

section

variable (data : Payload)

/-- The end of the name from `start` on, in front of `stop`. -/
def nameEnd (start stop : ℕ) : ℕ :=
  (firstFrom (fun i => !data[i]?.any isNameChar) stop start).getD (max start stop)

/-- The positions that the loop over a name indexes. -/
def nameReads (start stop : ℕ) : List ℕ :=
  List.range' start (min (nameEnd data start stop + 1) stop - start)

/-- The turn at a tag or comment. -/
def commentTurn (newpos : ℕ) : Turned :=
  if newpos + 5 < data.length ∧ slice data (newpos + 1) (newpos + 5) ≠ "!--%".toList then
    -- just a tag
    ⟨[], .skip (newpos + 1)⟩
  else
    let nestedpos := findFirstOf data "<>".toList (newpos + 1)
    let reads := nestedpos.toList
    match nestedpos.filter fun i => data[i]? = some '<' with
    -- the end of the comment was expected before a new tag
    | some nestedpos => ⟨reads, .skip nestedpos⟩
    | none =>
        match findFirstOf data ">".toList (newpos + 1) with
        -- broken comment
        | none => ⟨reads, .done⟩
        | some endpos =>
            match (findFirstOf data "%".toList newpos).filter (· ≤ endpos) with
            -- comment without a variable
            | none => ⟨reads, .skip (endpos + 1)⟩
            | some varstart =>
                let varend := nameEnd data (varstart + 1) endpos
                let reads := reads ++ nameReads data (varstart + 1) endpos
                if varend ≥ endpos then ⟨reads, .skip (endpos + 1)⟩
                else if data[varend]? ≠ some '%' then ⟨reads ++ [varend], .skip (endpos + 1)⟩
                else
                  ⟨reads ++ [varend], .take newpos (endpos + 1)
                    (.commentedVariable (slice data (varstart + 1) varend))⟩

/-- The turn at a percent sign. -/
def variableTurn (newpos : ℕ) : Turned :=
  let varend := nameEnd data (newpos + 1) data.length
  let reads := nameReads data (newpos + 1) data.length
  if varend > data.length then ⟨reads, .skip varend⟩
  -- broken variable; there is a NUL behind the data
  else if data[varend]? ≠ some '%' then ⟨reads ++ [varend], .skip varend⟩
  else
    ⟨reads ++ [varend], .take newpos (varend + 1) (.plainVariable (slice data (newpos + 1) varend))⟩

def turn (pos : ℕ) : Turned :=
  match findFirstOf data "<%".toList pos with
  | none => ⟨[], .done⟩
  | some newpos =>
      -- not enough data to parse a variable
      if newpos + 2 ≥ data.length then ⟨[], .done⟩
      else
        let turned :=
          if data[newpos]? = some '<' then commentTurn data newpos else variableTurn data newpos
        { turned with reads := newpos :: turned.reads }

end

/-- The position of the next turn. -/
def Turn.next : Turn → Option ℕ
  | done => none
  | skip pos => some pos
  | take _ stop _ => some stop

section

variable {data : Payload} {pos newpos : ℕ}

theorem le_nameEnd (data : Payload) (start stop : ℕ) : start ≤ nameEnd data start stop := by
  rw [nameEnd]
  cases hfirst : firstFrom (fun i => !data[i]?.any isNameChar) stop start with
  | none => exact le_max_left start stop
  | some i => exact (firstFrom_eq_some_iff.mp hfirst).1

theorem lt_of_commentTurn_next {pos' : ℕ} (h : (commentTurn data newpos).turn.next = some pos') :
    newpos < pos' := by
  rw [commentTurn] at h
  split at h
  case isTrue =>
    cases h
    exact Nat.lt_succ_self newpos
  case isFalse =>
    dsimp only at h
    split at h
    case h_1 nestedpos hnested =>
      cases h
      exact (findFirstOf_eq_some (Option.filter_eq_some_iff.mp hnested).1).1
    case h_2 =>
      split at h
      case h_1 => cases h
      case h_2 endpos hend =>
        have hlt : newpos < endpos + 1 := Nat.lt_succ_of_lt (findFirstOf_eq_some hend).1
        split at h
        case h_1 =>
          cases h
          exact hlt
        case h_2 => split_ifs at h <;> cases h <;> exact hlt

theorem lt_of_variableTurn_next {pos' : ℕ} (h : (variableTurn data newpos).turn.next = some pos') :
    newpos < pos' := by
  have hle := le_nameEnd data (newpos + 1) data.length
  rw [variableTurn] at h
  split_ifs at h
  case pos => cases h; exact hle
  case pos => cases h; exact hle
  case neg => cases h; exact Nat.lt_succ_of_lt hle

/-- The loop goes on further behind. -/
theorem lt_of_next {pos' : ℕ} (h : (turn data pos).turn.next = some pos') : pos < pos' := by
  rw [turn] at h
  split at h
  case h_1 => cases h
  case h_2 newpos hfind =>
    have hle := (findFirstOf_eq_some hfind).1
    split at h
    case isTrue => cases h
    case isFalse =>
      dsimp only at h
      split at h
      case isTrue => exact Nat.lt_of_le_of_lt hle (lt_of_commentTurn_next h)
      case isFalse => exact Nat.lt_of_le_of_lt hle (lt_of_variableTurn_next h)

end

/-! ## The loop -/

/-- The position of the turn behind the one at `pos`, unless the loop ends. -/
def following (data : Payload) (pos : ℕ) : Option ℕ :=
  (turn data pos).turn.next.filter fun next => next < data.length

theorem following_eq_some {data : Payload} {pos next : ℕ} :
    following data pos = some next ↔
      (turn data pos).turn.next = some next ∧ next < data.length := by
  rw [following, Option.filter_eq_some_iff, decide_eq_true_eq]

/-- The last position in a literal string, the segments, and the positions indexed so far. -/
structure Parsed where
  lastpos : ℕ
  segments : List Segment
  reads : List ℕ

/-- A literal segment, if there is anything in it. -/
def literal (data : Payload) (start stop : ℕ) : List Segment :=
  if start < stop then [.data (slice data start stop)] else []

def Parsed.add (data : Payload) (p : Parsed) (turned : Turned) : Parsed :=
  match turned.turn with
  | .take start stop segment =>
      -- insert the previous literal
      ⟨stop, p.segments ++ literal data p.lastpos start ++ [segment], p.reads ++ turned.reads⟩
  | _ => { p with reads := p.reads ++ turned.reads }

section

variable (data : Payload)

def loop (pos : ℕ) (p : Parsed) : Parsed :=
  let p := p.add data (turn data pos)
  match _hnext : following data pos with
  | none => p
  | some next => loop next p
termination_by data.length - pos
decreasing_by
  obtain ⟨hnext, hlt⟩ := following_eq_some.mp _hnext
  have hpos := lt_of_next hnext
  omega

def parsed : Parsed := loop data 0 ⟨0, [], []⟩

/-- The segments of a file. -/
def segments : List Segment :=
  (parsed data).segments ++ literal data (parsed data).lastpos data.length

/-- The positions of the file that are indexed. -/
def reads : List ℕ := (parsed data).reads

end

/-! ## Substitution -/

namespace Segment

/-- A segment as it is put together again without a value. -/
def text : Segment → Payload
  | data text => text
  | plainVariable name => "%".toList ++ name ++ "%".toList
  | commentedVariable name => "<!--%".toList ++ name ++ "%-->".toList

def value (values : Payload → Option Payload) : Segment → Option Payload
  | data _ => none
  | plainVariable name => values name
  | commentedVariable name => values name

end Segment

def substitute (values : Payload → Option Payload) (segments : List Segment) : Payload :=
  segments.flatMap fun segment => (segment.value values).getD segment.text

/-! ## The turns of the loop -/

/-- A variable that was taken, with its place in the data. -/
structure Take where
  start : ℕ
  stop : ℕ
  segment : Segment

def Turn.taken : Turn → Option Take
  | take start stop segment => some ⟨start, stop, segment⟩
  | _ => none

section

variable (data : Payload)

/-- The positions at which the loop makes its turns. -/
def positions (pos : ℕ) : List ℕ :=
  pos ::
    match _hnext : following data pos with
    | none => []
    | some next => positions next
termination_by data.length - pos
decreasing_by
  obtain ⟨hnext, hlt⟩ := following_eq_some.mp _hnext
  have hpos := lt_of_next hnext
  omega

/-- The variables that the turns from a position on take. -/
def takesFrom (pos : ℕ) : List Take :=
  (positions data pos).filterMap fun pos => (turn data pos).turn.taken

/-- The variables of the data. -/
def takes : List Take := takesFrom data 0

/-- The segments of variables, with the literals between them. -/
def assemble : ℕ → List Take → List Segment
  | lastpos, [] => literal data lastpos data.length
  | lastpos, t :: ts => literal data lastpos t.start ++ t.segment :: assemble t.stop ts

variable {pos next : ℕ}

theorem positions_of_none (h : following data pos = none) : positions data pos = [pos] := by
  rw [positions]
  split
  case h_1 => rfl
  case h_2 hnext => rw [h] at hnext; cases hnext

theorem positions_of_some (h : following data pos = some next) :
    positions data pos = pos :: positions data next := by
  rw [positions]
  split
  case h_1 hnone => rw [h] at hnone; cases hnone
  case h_2 hnext => rw [h] at hnext; cases hnext; rfl

theorem loop_eq (pos : ℕ) (p : Parsed) :
    loop data pos p = (positions data pos).foldl (fun p pos => p.add data (turn data pos)) p := by
  induction pos, p using loop.induct data with
  | case1 pos p hnext =>
      rw [loop, positions_of_none data hnext]
      split
      case h_1 => rfl
      case h_2 hother => rw [hnext] at hother; cases hother
  | case2 pos p p' next hnext ih =>
      rw [loop, positions_of_some data hnext, List.foldl_cons, ← ih]
      split
      case h_1 hother => rw [hnext] at hother; cases hother
      case h_2 hother => rw [hnext] at hother; cases hother; rfl

theorem reads_foldl (turns : List ℕ) (p : Parsed) :
    (turns.foldl (fun p pos => p.add data (turn data pos)) p).reads =
      p.reads ++ turns.flatMap fun pos => (turn data pos).reads := by
  induction turns generalizing p with
  | nil => simp
  | cons pos turns ih =>
      have hadd : (p.add data (turn data pos)).reads = p.reads ++ (turn data pos).reads := by
        rw [Parsed.add]
        split <;> rfl
      rw [List.foldl_cons, ih, hadd, List.flatMap_cons, List.append_assoc]

theorem segments_foldl (turns : List ℕ) (p : Parsed) :
    (turns.foldl (fun p pos => p.add data (turn data pos)) p).segments ++
        literal data (turns.foldl (fun p pos => p.add data (turn data pos)) p).lastpos data.length =
      p.segments ++
        assemble data p.lastpos (turns.filterMap fun pos => (turn data pos).turn.taken) := by
  induction turns generalizing p with
  | nil => rfl
  | cons pos turns ih =>
      rw [List.foldl_cons, ih]
      cases hturn : (turn data pos).turn with
      | done => simp [Parsed.add, hturn, Turn.taken]
      | skip next => simp [Parsed.add, hturn, Turn.taken]
      | take start stop segment => simp [Parsed.add, hturn, Turn.taken, assemble]

theorem segments_eq : segments data = assemble data 0 (takes data) := by
  rw [segments, parsed, loop_eq]
  exact segments_foldl data (positions data 0) ⟨0, [], []⟩

theorem reads_eq : reads data = (positions data 0).flatMap fun pos => (turn data pos).reads := by
  rw [reads, parsed, loop_eq]
  exact reads_foldl data (positions data 0) ⟨0, [], []⟩

end

end CoolOnline.PreProcessedFile
