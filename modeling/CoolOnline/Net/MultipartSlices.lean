import CoolOnline.Net.Multipart

/-! # Where the body of a part is

`MultipartDataParser::readPart` gives back a view of the data that it is given. It begins where the
header ends, which is looked for in all the data, and has the length that is left to the boundary.
-/

namespace CoolOnline.Http

open Search

/-- The offset behind the line of a boundary. -/
def Boundary.lineEnd (b : Boundary) : Nat := (b.stop + 1).toNat

namespace MultipartDataParser

variable (m : MultipartDataParser)

/-- The boundary that a part begins with. -/
def firstBoundary (data : Payload) : Option Boundary :=
  findBoundary data
    (if m.state = .firstPart ∧ m.dashBoundary <+: data then m.dashBoundary else m.delimiter) 0

/-- The body is a piece of the data, behind the line of a boundary and a header and in front of a
boundary. -/
structure Slice (data : Payload) (read : Nat) (body : Payload) : Prop where
  exists_split : ∃ line fields behind, data = line ++ (fields ++ (body ++ behind)) ∧
    read = (line ++ (fields ++ body)).length ∧
    (∃ first, m.firstBoundary data = some first ∧ line.length = first.lineEnd) ∧
    (∃ n, findBlankLine fields = some n ∧ fields.length = n + 1) ∧ m.delimiter <+: behind

/-- What is given back lies in the data. -/
def InBounds (data : Payload) : PartRead → Prop
  | .part read _ body =>
      read ≤ data.length ∧ ∃ slice, body = some slice ∧ m.Slice data read slice
  | .epilogue read => read ≤ data.length
  | .incomplete => True
  | .invalid => True

/-- A part is read between two boundaries, with a header that ends somewhere. -/
structure PartAt (poco : Payload → PocoRead) (data : Payload) (header : Header)
    (first next : Boundary) (off : Nat) (partHeader : Header) : Prop where
  notLast : m.isLast = false
  foundFirst : m.firstBoundary data = some first
  firstStop : (!first.last && first.stop == 0) = false ∧ 0 ≤ first.stop
  foundNext : findBoundary data m.delimiter first.lineEnd = some next
  nextStop : (!first.last && next.stop == 0) = false ∧ 0 ≤ next.stop
  parsed : header.parse poco (data.drop first.lineEnd) = .parsed off partHeader

/-- There is a blank line between the line of the first boundary and the next one. -/
def BlankLineBetween (data : Payload) (first next : Boundary) : Prop :=
  ∃ n, findBlankLine ((data.drop first.lineEnd).take (next.start - first.lineEnd)) = some n

variable {m} {poco : Payload → PocoRead} {data : Payload} {header partHeader : Header}
  {first next : Boundary} {off : Nat}

theorem readPart_of_partAt (h : m.PartAt poco data header first next off partHeader) :
    (m.readPart poco data header).2 = .part next.start partHeader
      (if first.lineEnd + off ≤ next.start then
        some (((data.drop first.lineEnd).drop off).take (next.start - first.lineEnd - off))
      else none) := by
  have hfirst := h.foundFirst
  rw [firstBoundary] at hfirst
  rw [readPart, if_neg (by rw [h.notLast]; exact Bool.false_ne_true)]
  simp only [hfirst, h.firstStop.1, Bool.false_eq_true, if_false, Int.not_lt.mpr h.firstStop.2]
  change (m.parseBehind poco data header first.lineEnd first.last).2 = _
  rw [parseBehind]
  simp only [h.foundNext, h.nextStop.1, Bool.false_eq_true, if_false,
    Int.not_lt.mpr h.nextStop.2, h.parsed]

theorem exists_partAt {read : Nat} {body : Option Payload}
    (h : (m.readPart poco data header).2 = .part read partHeader body) :
    ∃ first next off, m.PartAt poco data header first next off partHeader := by
  rw [readPart] at h
  simp only at h
  split at h
  · cases h
  case isFalse hlast =>
    split at h
    · cases h
    case h_2 first hfirst =>
      split at h
      · cases h
      case isFalse hstop =>
        split at h
        · cases h
        case isFalse hpos =>
          rw [parseBehind] at h
          split at h
          · cases h
          case h_2 next hnext =>
            split at h
            · cases h
            case isFalse hnextStop =>
              split at h
              · cases h
              case isFalse hnextPos =>
                simp only at h
                split at h
                · cases h
                · cases h
                case h_3 off header' hparsed =>
                  cases h
                  exact ⟨first, next, off, eq_false_of_ne_true hlast, hfirst,
                    ⟨eq_false_of_ne_true hstop, Int.not_lt.mp hpos⟩, hnext,
                    ⟨eq_false_of_ne_true hnextStop, Int.not_lt.mp hnextPos⟩, hparsed⟩

theorem findBoundary_eq_some {word : Payload} {b : Boundary}
    (h : findBoundary data word off = some b) :
    ∃ before behind, data.drop off = before ++ (word ++ behind) ∧
      b.start = off + before.length := by
  rw [findBoundary] at h
  rcases Option.map_eq_some_iff.mp h with ⟨⟨before, behind⟩, hcut, hb⟩
  refine ⟨before, behind, (cutAt_eq_some hcut).1, ?_⟩
  rw [← hb]
  simp only
  split
  · rfl
  · split <;> rfl

/-- All the data is consumed behind the last part. -/
theorem read_of_epilogue {read : Nat}
    (h : (m.readPart poco data header).2 = .epilogue read) : read = data.length := by
  by_cases hlast : m.isLast = true
  case pos =>
    rw [readPart, if_pos hlast] at h
    cases h
    rfl
  case neg =>
    rw [readPart, if_neg hlast] at h
    simp only at h
    split at h
    · cases h
    · split at h
      · cases h
      · split at h
        · cases h
        · rw [parseBehind] at h
          simp only at h
          split at h
          · cases h
          · split at h
            · cases h
            · split at h
              · cases h
              · split at h <;> cases h

theorem parse_eq_parsed {p : Payload} (h : header.parse poco p = .parsed off partHeader) :
    ∃ n, findBlankLine p = some n ∧ off = n + 1 := by
  rw [Header.parse] at h
  split at h
  · cases h
  · split at h
    · cases h
    case h_2 n hfound =>
      split at h
      · cases h
      · cases h
      · cases h
        exact ⟨n, hfound, rfl⟩

/-- The text behind the line of the first boundary is cut at the next one. -/
theorem PartAt.exists_split (h : m.PartAt poco data header first next off partHeader) :
    ∃ line between behind, data = line ++ (between ++ behind) ∧ line.length = first.lineEnd ∧
      next.start = first.lineEnd + between.length ∧ m.delimiter <+: behind := by
  rcases findBoundary_eq_some h.foundNext with ⟨between, behind, hdata, hstart⟩
  refine ⟨data.take first.lineEnd, between, m.delimiter ++ behind, ?_, ?_, hstart,
    List.prefix_append _ _⟩
  · rw [← hdata, List.take_append_drop]
  · have hlength := congrArg List.length hdata
    have hpos : 0 < m.delimiter.length := Nat.succ_pos _
    simp only [List.length_drop, List.length_append] at hlength
    rw [List.length_take]
    omega

/-- A header that ends between the boundaries is read up to its blank line, and one that does not
is read beyond the next boundary. -/
theorem PartAt.le_iff (h : m.PartAt poco data header first next off partHeader) :
    first.lineEnd + off ≤ next.start ↔ BlankLineBetween data first next := by
  rcases h.exists_split with ⟨line, between, behind, rfl, hline, hstart, -⟩
  rcases parse_eq_parsed h.parsed with ⟨n, hfound, rfl⟩
  rw [← hline, List.drop_left] at hfound
  have hbetween : BlankLineBetween (line ++ (between ++ behind)) first next ↔
      ∃ n, findBlankLine between = some n := by
    rw [BlankLineBetween, hstart, Nat.add_sub_cancel_left, ← hline, List.drop_left, List.take_left]
  rw [hbetween, hstart]
  constructor
  · intro hle
    exact ⟨n, findBlankLine_of_append hfound (by omega)⟩
  · rintro ⟨k, hk⟩
    rcases findBlankLine_append hk behind with ⟨hsame, hlt⟩
    rw [hfound] at hsame
    cases hsame
    omega

/-- Where there is a blank line between the boundaries, the body is what is behind it. -/
theorem PartAt.slice (h : m.PartAt poco data header first next off partHeader)
    (hle : first.lineEnd + off ≤ next.start) :
    m.Slice data next.start
      (((data.drop first.lineEnd).drop off).take (next.start - first.lineEnd - off)) := by
  rcases h.le_iff.mp hle with ⟨k, hk⟩
  rcases parse_eq_parsed h.parsed with ⟨n, hfound, rfl⟩
  rcases h.exists_split with ⟨line, between, behind, rfl, hline, hstart, hbehind⟩
  rw [← hline, List.drop_left] at hfound
  rw [hstart] at hle
  rw [hstart, Nat.add_sub_cancel_left, ← hline, List.drop_left] at hk ⊢
  rw [List.take_left] at hk
  have hsame := (findBlankLine_append hk behind).1
  rw [hfound] at hsame
  cases hsame
  have hbody : ((between ++ behind).drop (k + 1)).take (between.length - (k + 1)) =
      between.drop (k + 1) := by
    rw [List.drop_append_of_le_length (by omega), ← List.length_drop, List.take_left]
  rw [hbody]
  refine ⟨line, between.take (k + 1), behind, ?_, ?_, ⟨first, h.foundFirst, hline⟩, ⟨k, ?_, ?_⟩,
    hbehind⟩
  · rw [← List.append_assoc (between.take (k + 1)), List.take_append_drop]
  · rw [List.take_append_drop, List.length_append]
  · rw [← List.take_append_drop (k + 1) between] at hk
    apply findBlankLine_of_append hk
    rw [List.length_take]
    omega
  · rw [List.length_take]
    omega

/-- What is given back lies in the data if and only if a part that is read has a blank line before
the next boundary. -/
theorem inBounds_readPart_iff (m : MultipartDataParser) (poco : Payload → PocoRead)
    (data : Payload) (header : Header) :
    m.InBounds data (m.readPart poco data header).2 ↔
      ∀ first next off partHeader, m.PartAt poco data header first next off partHeader →
        BlankLineBetween data first next := by
  constructor
  · intro h first next off partHeader hpart
    rw [readPart_of_partAt hpart] at h
    rcases h.2 with ⟨slice, hslice, -⟩
    apply hpart.le_iff.mp
    by_contra hle
    rw [if_neg hle] at hslice
    cases hslice
  · intro h
    cases hread : (m.readPart poco data header).2 with
    | incomplete => trivial
    | invalid => trivial
    | epilogue read =>
        have hall := read_of_epilogue hread
        exact hall.le
    | part read partHeader body =>
        rcases exists_partAt hread with ⟨first, next, off, hpart⟩
        have hle := hpart.le_iff.mpr (h first next off partHeader hpart)
        rw [readPart_of_partAt hpart, if_pos hle] at hread
        cases hread
        refine ⟨?_, _, rfl, hpart.slice hle⟩
        rcases hpart.exists_split with ⟨line, between, behind, rfl, hline, hstart, -⟩
        rw [hstart, List.length_append, List.length_append]
        omega

/-- The first part has no header field: the blank line that is found is the one of the second. -/
theorem not_inBounds_noField :
    (⟨['b'], .firstPart⟩ : MultipartDataParser).readPart (fun _ => .fields [])
        "--b\r\n\r\none\r\n--b\r\nA: 1\r\n\r\ntwo\r\n--b--\r\n".toList .empty =
      (⟨['b'], .nextPart⟩, .part 10 .empty none) ∧
    ¬ (⟨['b'], .firstPart⟩ : MultipartDataParser).InBounds
      "--b\r\n\r\none\r\n--b\r\nA: 1\r\n\r\ntwo\r\n--b--\r\n".toList
      ((⟨['b'], .firstPart⟩ : MultipartDataParser).readPart (fun _ => .fields [])
        "--b\r\n\r\none\r\n--b\r\nA: 1\r\n\r\ntwo\r\n--b--\r\n".toList .empty).2 := by
  have hread : (⟨['b'], .firstPart⟩ : MultipartDataParser).readPart (fun _ => .fields [])
      "--b\r\n\r\none\r\n--b\r\nA: 1\r\n\r\ntwo\r\n--b--\r\n".toList .empty =
      (⟨['b'], .nextPart⟩, .part 10 .empty none) := by decide +kernel
  apply And.intro hread
  rw [hread]
  rintro ⟨-, slice, hslice, -⟩
  cases hslice

end MultipartDataParser

end CoolOnline.Http
