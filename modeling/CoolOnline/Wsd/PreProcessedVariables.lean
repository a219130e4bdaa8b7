import CoolOnline.Wsd.PreProcessedFile

/-! # Variables of preprocessed files

What the turns of the loop take for variables, that no comment with a variable is passed over, and
which positions of the data are indexed.
-/

namespace CoolOnline.PreProcessedFile

open Positions

/-- A tag that ends at `endpos` and has its first percent sign at `varstart`, with a name up to
another one at `varend`. -/
structure CommentSpan (data : Payload) (newpos varstart varend endpos : ℕ) : Prop where
  order : newpos < varstart ∧ varstart < varend ∧ varend < endpos
  opens : data[newpos]? = some '<'
  percent : data[varstart]? = some '%'
  nameStop : data[varend]? = some '%'
  closes : data[endpos]? = some '>'
  inside (i : ℕ) (c : Char) (hi : newpos < i) (hlt : i < endpos) (hc : data[i]? = some c) :
    c ≠ '<' ∧ c ≠ '>'
  before (i : ℕ) (hi : newpos < i) (hlt : i < varstart) : data[i]? ≠ some '%'
  named (i : ℕ) (hi : varstart < i) (hlt : i < varend) :
    ∃ c, data[i]? = some c ∧ isNameChar c = true

/-- The tag is not passed over as just a tag: it begins as a commented variable does, or there are
at most five characters from it to the end. -/
def TakenAsComment (data : Payload) (newpos : ℕ) : Prop :=
  newpos + 5 < data.length → slice data (newpos + 1) (newpos + 5) = "!--%".toList

/-- A variable from `newpos` to `varend`. -/
structure VariableSpan (data : Payload) (newpos varend : ℕ) : Prop where
  order : newpos < varend
  opens : data[newpos]? = some '%'
  nameStop : data[varend]? = some '%'
  named (i : ℕ) (hi : newpos < i) (hlt : i < varend) :
    ∃ c, data[i]? = some c ∧ isNameChar c = true

section

variable {data : Payload} {pos newpos start stop e : ℕ}

/-! ## Names -/

theorem nameEnd_le (h : start ≤ stop) : nameEnd data start stop ≤ stop := by
  rw [nameEnd]
  cases hfirst : firstFrom (fun i => !data[i]?.any isNameChar) stop start with
  | none => exact max_le h le_rfl
  | some i => exact Nat.le_of_lt (firstFrom_eq_some_iff.mp hfirst).2.1

theorem nameEnd_named (h : start ≤ stop) {i : ℕ} (hi : start ≤ i)
    (hlt : i < nameEnd data start stop) : ∃ c, data[i]? = some c ∧ isNameChar c = true := by
  have hnamed : (!data[i]?.any isNameChar) = false := by
    rw [nameEnd] at hlt
    cases hfirst : firstFrom (fun i => !data[i]?.any isNameChar) stop start with
    | none =>
        rw [hfirst, Option.getD_none, max_eq_right h] at hlt
        exact firstFrom_eq_none_iff.mp hfirst i hi hlt
    | some j =>
        rw [hfirst] at hlt
        exact (firstFrom_eq_some_iff.mp hfirst).2.2.2 i hi hlt
  cases hc : data[i]? with
  | none => simp [hc] at hnamed
  | some c => exact ⟨c, rfl, by simpa [hc] using hnamed⟩

/-- Where the name ends is found. -/
theorem nameEnd_eq (he : start ≤ e) (hlt : e < stop) {c : Char} (hc : data[e]? = some c)
    (hstop : isNameChar c = false)
    (hnamed : ∀ i, start ≤ i → i < e → ∃ c, data[i]? = some c ∧ isNameChar c = true) :
    nameEnd data start stop = e := by
  have hfirst : firstFrom (fun i => !data[i]?.any isNameChar) stop start = some e := by
    refine firstFrom_eq_some_iff.mpr ⟨he, hlt, by simp [hc, hstop], fun i hi hie => ?_⟩
    obtain ⟨c, hc, hname⟩ := hnamed i hi hie
    simp [hc, hname]
  rw [nameEnd, hfirst]
  rfl

/-! ## What a tag is taken for -/

/-- Where no tag is nested, the end of the tag comes before the next one. -/
theorem not_open_inside {endpos i : ℕ}
    (hnested : ((findFirstOf data "<>".toList (newpos + 1)).filter
      fun i => data[i]? = some '<') = none)
    (hend : findFirstOf data ">".toList (newpos + 1) = some endpos) (hi : newpos < i)
    (hlt : i < endpos) : data[i]? ≠ some '<' := by
  intro hopen
  obtain ⟨nested, hfind, hle⟩ := exists_findFirstOf hi hopen (show '<' ∈ "<>".toList by decide)
  rw [hfind] at hnested
  obtain ⟨hgt, ⟨c, hmem, hc⟩, -⟩ := findFirstOf_eq_some hfind
  have hnot : c ∉ ">".toList :=
    (findFirstOf_eq_some hend).2.2 nested c hgt (Nat.lt_of_le_of_lt hle hlt) hc
  have hnotOpen : c ≠ '<' := by
    intro heq
    simp [hc, heq] at hnested
  simp only [String.reduceToList, List.mem_cons, List.not_mem_nil, or_false] at hmem hnot
  exact hmem.elim hnotOpen hnot

theorem commentSpan_of_found {varstart endpos : ℕ} (hopen : data[newpos]? = some '<')
    (hnested : ((findFirstOf data "<>".toList (newpos + 1)).filter
      fun i => data[i]? = some '<') = none)
    (hend : findFirstOf data ">".toList (newpos + 1) = some endpos)
    (hvar : (findFirstOf data "%".toList newpos).filter (· ≤ endpos) = some varstart)
    (hname : nameEnd data (varstart + 1) endpos < endpos)
    (hstop : data[nameEnd data (varstart + 1) endpos]? = some '%') :
    CommentSpan data newpos varstart (nameEnd data (varstart + 1) endpos) endpos := by
  obtain ⟨hfind, hle⟩ := Option.filter_eq_some_iff.mp hvar
  have hle := of_decide_eq_true hle
  obtain ⟨hgt, ⟨c, hmem, hcloses⟩, hfirst⟩ := findFirstOf_eq_some hend
  cases List.mem_singleton.mp hmem
  obtain ⟨hge, ⟨c, hmem, hpercent⟩, hbefore⟩ := findFirstOf_eq_some hfind
  cases List.mem_singleton.mp hmem
  have hne : newpos ≠ varstart := by
    intro heq
    rw [heq, hpercent] at hopen
    cases hopen
  have hne' : varstart ≠ endpos := by
    intro heq
    rw [heq, hcloses] at hpercent
    cases hpercent
  have hstart : varstart + 1 ≤ endpos := by omega
  constructor
  case order =>
    have hlt := le_nameEnd data (varstart + 1) endpos
    omega
  case opens => exact hopen
  case percent => exact hpercent
  case nameStop => exact hstop
  case closes => exact hcloses
  case inside =>
    intro i c hi hlt hc
    refine ⟨fun heq => ?_, fun heq => ?_⟩
    · exact not_open_inside hnested hend hi hlt (heq ▸ hc)
    · exact hfirst i c hi hlt hc (heq ▸ List.mem_singleton_self _)
  case before =>
    intro i hi hlt hc
    exact hbefore i '%' (Nat.le_of_lt hi) hlt hc (List.mem_singleton_self _)
  case named =>
    intro i hi hlt
    exact nameEnd_named hstart hi hlt

theorem commentTurn_taken {t : Take} (hopen : data[newpos]? = some '<')
    (h : (commentTurn data newpos).turn.taken = some t) :
    TakenAsComment data newpos ∧ ∃ varstart varend endpos,
      CommentSpan data newpos varstart varend endpos ∧
        t = ⟨newpos, endpos + 1, .commentedVariable (slice data (varstart + 1) varend)⟩ := by
  rw [commentTurn] at h
  split at h
  case isTrue => cases h
  case isFalse htag =>
    refine ⟨fun hlong => by_contra fun hnot => htag ⟨hlong, hnot⟩, ?_⟩
    dsimp only at h
    split at h
    case h_1 => cases h
    case h_2 hnested =>
      split at h
      case h_1 => cases h
      case h_2 endpos hend =>
        split at h
        case h_1 => cases h
        case h_2 varstart hvar =>
          split_ifs at h with hname hstop
          case pos => cases h
          case pos => cases h
          case neg =>
            cases h
            exact ⟨varstart, _, endpos, commentSpan_of_found hopen hnested hend hvar
              (Nat.lt_of_not_le hname) (not_not.mp hstop), rfl⟩

theorem commentTurn_of_span {varstart varend endpos : ℕ} (htaken : TakenAsComment data newpos)
    (h : CommentSpan data newpos varstart varend endpos) :
    (commentTurn data newpos).turn =
      .take newpos (endpos + 1) (.commentedVariable (slice data (varstart + 1) varend)) := by
  obtain ⟨hvarstart, hvarend, hendpos⟩ := h.order
  have hcomment : ¬ (newpos + 5 < data.length ∧
      slice data (newpos + 1) (newpos + 5) ≠ "!--%".toList) := fun hnot => hnot.2 (htaken hnot.1)
  have hnested : findFirstOf data "<>".toList (newpos + 1) = some endpos := by
    refine findFirstOf_eq_some_iff.mpr ⟨by omega, ⟨'>', by decide, h.closes⟩, ?_⟩
    intro i c hi hlt hc
    have hneither := h.inside i c hi hlt hc
    simp [hneither.1, hneither.2]
  have hend : findFirstOf data ">".toList (newpos + 1) = some endpos := by
    refine findFirstOf_eq_some_iff.mpr ⟨by omega, ⟨'>', by decide, h.closes⟩, ?_⟩
    intro i c hi hlt hc
    simp [(h.inside i c hi hlt hc).2]
  have hvar : findFirstOf data "%".toList newpos = some varstart := by
    refine findFirstOf_eq_some_iff.mpr ⟨by omega, ⟨'%', by decide, h.percent⟩, ?_⟩
    intro i c hi hlt hc hmem
    cases List.mem_singleton.mp hmem
    cases Nat.eq_or_lt_of_le hi with
    | inl heq =>
        rw [← heq, h.opens] at hc
        cases hc
    | inr hgt => exact h.before i hgt hlt hc
  have hname : nameEnd data (varstart + 1) endpos = varend :=
    nameEnd_eq hvarend hendpos h.nameStop (by decide) fun i hi hlt => h.named i hi hlt
  have hnotNested : ((some endpos).filter fun i => data[i]? = some '<') = none := by
    simp [h.closes]
  have hkept : ((some varstart).filter (· ≤ endpos)) = some varstart := by
    simp only [Option.filter_some, ite_eq_left_iff, decide_eq_true_eq]
    omega
  rw [commentTurn, if_neg hcomment]
  dsimp only
  rw [hnested, hnotNested, hend, hvar]
  dsimp only
  rw [hkept]
  dsimp only
  rw [hname, if_neg (Nat.not_le_of_lt hendpos), if_neg (not_not.mpr h.nameStop)]

theorem variableTurn_taken {t : Take} (hopen : data[newpos]? = some '%')
    (hlt : newpos < data.length) (h : (variableTurn data newpos).turn.taken = some t) :
    ∃ varend, VariableSpan data newpos varend ∧
      t = ⟨newpos, varend + 1, .plainVariable (slice data (newpos + 1) varend)⟩ := by
  rw [variableTurn] at h
  split_ifs at h with hname hstop
  case pos => cases h
  case pos => cases h
  case neg =>
    cases h
    refine ⟨_, ⟨le_nameEnd data (newpos + 1) data.length, hopen, not_not.mp hstop, ?_⟩, rfl⟩
    intro i hi hlt'
    exact nameEnd_named hlt hi hlt'

/-- The variable of a turn is a commented one or a plain one. -/
def TakeOk (data : Payload) (t : Take) : Prop :=
  (TakenAsComment data t.start ∧ ∃ varstart varend endpos,
      CommentSpan data t.start varstart varend endpos ∧
        t = ⟨t.start, endpos + 1, .commentedVariable (slice data (varstart + 1) varend)⟩) ∨
    ∃ varend, VariableSpan data t.start varend ∧
      t = ⟨t.start, varend + 1, .plainVariable (slice data (t.start + 1) varend)⟩

/-- A turn with anything but a break looks at the first of the two characters. -/
theorem turn_of_found (hfind : findFirstOf data "<%".toList pos = some newpos)
    (hlong : newpos + 2 < data.length) :
    (turn data pos).turn =
      (if data[newpos]? = some '<' then commentTurn data newpos
        else variableTurn data newpos).turn := by
  rw [turn, hfind]
  dsimp only
  rw [if_neg (Nat.not_le_of_lt hlong)]

theorem percent_of_found (hfind : findFirstOf data "<%".toList pos = some newpos)
    (hopen : data[newpos]? ≠ some '<') : data[newpos]? = some '%' := by
  obtain ⟨-, ⟨c, hmem, hc⟩, -⟩ := findFirstOf_eq_some hfind
  simp only [String.reduceToList, List.mem_cons, List.not_mem_nil, or_false] at hmem
  cases hmem with
  | inl heq => exact absurd (heq ▸ hc) hopen
  | inr heq => exact heq ▸ hc

theorem turn_taken {t : Take} (h : (turn data pos).turn.taken = some t) :
    pos ≤ t.start ∧ TakeOk data t ∧ (turn data pos).turn = .take t.start t.stop t.segment := by
  have hturn : (turn data pos).turn = .take t.start t.stop t.segment := by
    cases hturn : (turn data pos).turn with
    | done => rw [hturn] at h; cases h
    | skip next => rw [hturn] at h; cases h
    | take start stop segment => rw [hturn] at h; cases h; rfl
  cases hfind : findFirstOf data "<%".toList pos with
  | none =>
      rw [turn, hfind] at h
      cases h
  | some newpos =>
      have hle := (findFirstOf_eq_some hfind).1
      by_cases hlong : newpos + 2 < data.length
      case neg =>
        rw [turn, hfind] at h
        dsimp only at h
        rw [if_pos (Nat.le_of_not_lt hlong)] at h
        cases h
      case pos =>
        have hsame := turn_of_found hfind hlong
        rw [hsame] at h
        split at h
        case isTrue hopen =>
          obtain ⟨hcomment, varstart, varend, endpos, hspan, rfl⟩ := commentTurn_taken hopen h
          exact ⟨hle, .inl ⟨hcomment, varstart, varend, endpos, hspan, rfl⟩, hturn⟩
        case isFalse hopen =>
          obtain ⟨varend, hspan, rfl⟩ :=
            variableTurn_taken (percent_of_found hfind hopen) (by omega) h
          exact ⟨hle, .inr ⟨varend, hspan, rfl⟩, hturn⟩

/-! ## No tag is passed over -/

/-- The turn in front of a tag goes on at the tag at the latest. -/
theorem next_le_of_open {p endpos' : ℕ} (hfind : findFirstOf data "<%".toList pos = some newpos)
    (hlong : newpos + 2 < data.length) (hlt : newpos < p) (hopen : data[p]? = some '<')
    (hcloses : data[endpos']? = some '>') (hend' : p < endpos') :
    ∃ next, (turn data pos).turn.next = some next ∧ next ≤ p := by
  rw [turn_of_found hfind hlong]
  split
  case isTrue =>
    obtain ⟨endpos, hend, hle⟩ := exists_findFirstOf (hlt.trans hend') hcloses
      (show '>' ∈ ">".toList by decide)
    rw [commentTurn]
    split
    case isTrue => exact ⟨newpos + 1, rfl, hlt⟩
    case isFalse =>
      dsimp only
      split
      case h_1 nested hnested =>
        obtain ⟨nested', hfind', hle'⟩ := exists_findFirstOf hlt hopen
          (show '<' ∈ "<>".toList by decide)
        have hsame := (Option.filter_eq_some_iff.mp hnested).1.symm.trans hfind'
        cases hsame
        exact ⟨nested, rfl, hle'⟩
      case h_2 hnested =>
        have hbehind : endpos + 1 ≤ p := by
          by_contra hnot
          cases Nat.lt_or_eq_of_le (Nat.le_of_not_lt hnot) with
          | inl hfront => exact not_open_inside hnested hend hlt hfront hopen
          | inr heq =>
              obtain ⟨-, ⟨c, hmem, hc⟩, -⟩ := findFirstOf_eq_some hend
              cases List.mem_singleton.mp hmem
              rw [← heq, hopen] at hc
              cases hc
        rw [hend]
        dsimp only
        split
        case h_1 => exact ⟨endpos + 1, rfl, hbehind⟩
        case h_2 =>
          split_ifs <;> exact ⟨endpos + 1, rfl, hbehind⟩
  case isFalse =>
    have hname : nameEnd data (newpos + 1) data.length ≤ p := by
      by_contra hnot
      obtain ⟨c, hc, hnamed⟩ := nameEnd_named (by omega) hlt (Nat.lt_of_not_le hnot)
      rw [hopen] at hc
      cases hc
      exact absurd hnamed (by decide)
    rw [variableTurn]
    split_ifs with hbehind hstop
    case pos => exact ⟨_, rfl, hname⟩
    case pos => exact ⟨_, rfl, hname⟩
    case neg =>
      refine ⟨_, rfl, Nat.lt_of_le_of_ne hname fun heq => ?_⟩
      rw [heq, hopen] at hstop
      exact hstop (by decide)

theorem takesFrom_of_none (h : following data pos = none) :
    takesFrom data pos = (turn data pos).turn.taken.toList := by
  rw [takesFrom, positions_of_none data h, List.filterMap_cons, List.filterMap_nil]
  cases (turn data pos).turn.taken <;> rfl

theorem takesFrom_of_some {next : ℕ} (h : following data pos = some next) :
    takesFrom data pos = (turn data pos).turn.taken.toList ++ takesFrom data next := by
  rw [takesFrom, positions_of_some data h, List.filterMap_cons]
  cases (turn data pos).turn.taken <;> rfl

/-- Each tag that is taken for a comment with a variable is one of the variables. -/
theorem mem_takesFrom {p varstart varend endpos : ℕ}
    (h : CommentSpan data p varstart varend endpos) (htaken : TakenAsComment data p)
    (hle : pos ≤ p) :
    ⟨p, endpos + 1, .commentedVariable (slice data (varstart + 1) varend)⟩ ∈
      takesFrom data pos := by
  obtain ⟨hvarstart, hvarend, hendpos⟩ := h.order
  have hlength := (List.getElem?_eq_some_iff.mp h.closes).1
  induction hmeasure : p - pos using Nat.strong_induction_on generalizing pos with
  | _ n ih =>
      obtain ⟨newpos, hfind, hfirst⟩ := exists_findFirstOf hle h.opens
        (show '<' ∈ "<%".toList by decide)
      have hlong : newpos + 2 < data.length := by omega
      cases Nat.eq_or_lt_of_le hfirst with
      | inl heq =>
          subst heq
          have hturn : (turn data pos).turn.taken =
              some ⟨newpos, endpos + 1,
                .commentedVariable (slice data (varstart + 1) varend)⟩ := by
            rw [turn_of_found hfind hlong, if_pos h.opens, commentTurn_of_span htaken h]
            rfl
          cases hnext : following data pos with
          | none =>
              rw [takesFrom_of_none hnext, hturn]
              exact List.mem_singleton_self _
          | some next =>
              rw [takesFrom_of_some hnext, hturn]
              exact List.mem_append_left _ (List.mem_singleton_self _)
      | inr hlt =>
          obtain ⟨next, hnext, hnextLe⟩ :=
            next_le_of_open hfind hlong hlt h.opens h.closes (by omega)
          have hfollowing : following data pos = some next :=
            following_eq_some.mpr ⟨hnext, by omega⟩
          have hpos := lt_of_next hnext
          rw [takesFrom_of_some hfollowing]
          exact List.mem_append_right _ (ih (p - next) (by omega) hnextLe rfl)

/-! ## What is indexed -/

/-- The first of the two characters is a percent sign, with nothing but a name behind it. -/
def OpenAt (data : Payload) (pos : ℕ) : Prop :=
  ∃ newpos, findFirstOf data "<%".toList pos = some newpos ∧ newpos + 2 < data.length ∧
    data[newpos]? = some '%' ∧
    ∀ i, newpos < i → i < data.length → ∃ c, data[i]? = some c ∧ isNameChar c = true

theorem lt_of_mem_nameReads {i : ℕ} (h : i ∈ nameReads data start stop) : i < stop := by
  rw [nameReads, List.mem_range'_1] at h
  omega

theorem lt_of_mem_commentTurn {i : ℕ}
    (h : i ∈ (commentTurn data newpos).reads) : i < data.length := by
  have hnested {j : ℕ} (hj : j ∈ (findFirstOf data "<>".toList (newpos + 1)).toList) :
      j < data.length := by
    obtain ⟨-, ⟨c, -, hc⟩, -⟩ := findFirstOf_eq_some (Option.mem_toList.mp hj)
    exact (List.getElem?_eq_some_iff.mp hc).1
  rw [commentTurn] at h
  split at h
  case isTrue => exact absurd h List.not_mem_nil
  case isFalse =>
    dsimp only at h
    split at h
    case h_1 => exact hnested h
    case h_2 =>
      split at h
      case h_1 => exact hnested h
      case h_2 endpos hend =>
        obtain ⟨-, ⟨c, -, hc⟩, -⟩ := findFirstOf_eq_some hend
        have hendpos := (List.getElem?_eq_some_iff.mp hc).1
        split at h
        case h_1 => exact hnested h
        case h_2 varstart hvar =>
          have hname (hi : i ∈ (findFirstOf data "<>".toList (newpos + 1)).toList ++
              nameReads data (varstart + 1) endpos) : i < data.length := by
            cases List.mem_append.mp hi with
            | inl hi => exact hnested hi
            | inr hi => exact (lt_of_mem_nameReads hi).trans hendpos
          split_ifs at h with hend' hstop
          case pos => exact hname h
          all_goals
            cases List.mem_append.mp h with
            | inl hi => exact hname hi
            | inr hi =>
                rw [List.mem_singleton.mp hi]
                exact (Nat.lt_of_not_le hend').trans hendpos

theorem mem_variableTurn_reads {i : ℕ} (hlt : newpos < data.length) :
    i ∈ (variableTurn data newpos).reads ↔
      i ∈ nameReads data (newpos + 1) data.length ∨
        i = nameEnd data (newpos + 1) data.length := by
  have hle : ¬ nameEnd data (newpos + 1) data.length > data.length :=
    Nat.not_lt.mpr (nameEnd_le hlt)
  rw [variableTurn, if_neg hle]
  split <;> rw [List.mem_append, List.mem_singleton]

theorem mem_turn_reads {i : ℕ} (hfind : findFirstOf data "<%".toList pos = some newpos)
    (hlong : newpos + 2 < data.length) :
    i ∈ (turn data pos).reads ↔ i = newpos ∨
      i ∈ (if data[newpos]? = some '<' then commentTurn data newpos
        else variableTurn data newpos).reads := by
  rw [turn, hfind]
  dsimp only
  rw [if_neg (Nat.not_le_of_lt hlong), List.mem_cons]

/-- A turn indexes the data, or the NUL behind it where a name is open at the end. -/
theorem mem_turn_reads_cases {i : ℕ} (h : i ∈ (turn data pos).reads) :
    i < data.length ∨ i = data.length ∧ OpenAt data pos := by
  cases hfind : findFirstOf data "<%".toList pos with
  | none =>
      rw [turn, hfind] at h
      exact absurd h List.not_mem_nil
  | some newpos =>
      by_cases hlong : newpos + 2 < data.length
      case neg =>
        rw [turn, hfind] at h
        dsimp only at h
        rw [if_pos (Nat.le_of_not_lt hlong)] at h
        exact absurd h List.not_mem_nil
      case pos =>
        have hlt : newpos < data.length := by omega
        rw [mem_turn_reads hfind hlong] at h
        cases h with
        | inl heq => exact .inl (heq ▸ hlt)
        | inr h =>
            split at h
            case isTrue => exact .inl (lt_of_mem_commentTurn h)
            case isFalse hopen =>
              cases (mem_variableTurn_reads hlt).mp h with
              | inl hi => exact .inl (lt_of_mem_nameReads hi)
              | inr heq =>
                  have hle : nameEnd data (newpos + 1) data.length ≤ data.length := nameEnd_le hlt
                  cases Nat.lt_or_eq_of_le hle with
                  | inl hend => exact .inl (heq ▸ hend)
                  | inr hend =>
                      refine .inr ⟨heq.trans hend, newpos, hfind, hlong,
                        percent_of_found hfind hopen, fun i hi hlt' => ?_⟩
                      exact nameEnd_named hlt hi (Nat.lt_of_lt_of_eq hlt' hend.symm)

theorem length_mem_turn_reads (h : OpenAt data pos) : data.length ∈ (turn data pos).reads := by
  obtain ⟨newpos, hfind, hlong, hpercent, hnamed⟩ := h
  have hlt : newpos < data.length := by omega
  have hend : nameEnd data (newpos + 1) data.length = data.length := by
    rw [nameEnd, firstFrom_eq_none_iff.mpr ?_, Option.getD_none, max_eq_right hlt]
    intro i hi hlt'
    obtain ⟨c, hc, hname⟩ := hnamed i hi hlt'
    simp [hc, hname]
  have hopen : data[newpos]? ≠ some '<' := by
    rw [hpercent]
    decide
  rw [mem_turn_reads hfind hlong, if_neg hopen, mem_variableTurn_reads hlt]
  exact .inr (.inr hend.symm)

/-- The data is indexed inside it, unless a turn comes to a name that is open at the end. -/
theorem reads_inside_iff (data : Payload) :
    (∀ i ∈ reads data, i < data.length) ↔ ∀ pos ∈ positions data 0, ¬ OpenAt data pos := by
  rw [reads_eq]
  constructor
  · intro h pos hpos hopen
    have hlt := h data.length (List.mem_flatMap.mpr ⟨pos, hpos, length_mem_turn_reads hopen⟩)
    exact Nat.lt_irrefl _ hlt
  · intro h i hi
    obtain ⟨pos, hpos, hi⟩ := List.mem_flatMap.mp hi
    exact (mem_turn_reads_cases hi).resolve_right fun hopen => h pos hpos hopen.2

end

end CoolOnline.PreProcessedFile
