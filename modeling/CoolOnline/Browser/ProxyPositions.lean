import CoolOnline.Browser.ProxySocket
import CoolOnline.Library.Walks
import CoolOnline.Wsd.ProxyIndices
import Mathlib.Data.Int.Interval

/-! # The positions that a response is read at

`ProxySocket.parseIncomingArray` of `browser/js/global.js` once more, by the index that it steps
through the array with. What is done with a message does not change where the next one is looked
for, so that messages are only counted. `parseInt` of the decoded text is a parameter, which is none
where it is not finite.
-/

namespace CoolOnline.Proxy

open Relation Walks

/-! ## Reading by position -/

/-- `while (arr[i] != 10) i++`, for some turns; behind the array everything is undefined. -/
def skipLine (arr : Payload) : Nat → Nat → Option Nat
  | 0, _ => none
  | turns + 1, i => if arr[i]? = some '\n' then some i else skipLine arr turns (i + 1)

/-- A number behind its preamble, which is missing where both characters are others. -/
inductive NumberAt
  | missing
  | number (n : Option Int) (i : Nat)

section

variable (number : Payload → Option Int) (arr : Payload) (lineTurns : Nat)

def readNumberAt (i : Nat) : Option NumberAt :=
  if arr[i]? ≠ some '0' ∧ arr[i + 1]? ≠ some 'x' then some .missing
  else
    let start := i + 2
    (skipLine arr lineTurns start).map fun i =>
      .number (number ((arr.drop start).take (i - start))) (i + 1)

/-- The number of messages, if the turns of all loops are enough. -/
def parseIncomingArrayAt : Nat → Int → Nat → Option Nat
  | 0, _, _ => none
  | turns + 1, i, messages =>
      if (arr.length : Int) ≤ i then some messages
      else if (arr.length : Int) - i < 4 then some messages
      else if i < 0 then some messages -- There is no type.
      else if arr[i.toNat]? ≠ some 'T' ∧ arr[i.toNat]? ≠ some 'B' then some messages
      else
        match readNumberAt number arr lineTurns (i.toNat + 1) with
        | none => none
        | some .missing => some messages
        | some (.number _ serialEnd) =>
            match readNumberAt number arr lineTurns serialEnd with
            | none => none
            | some .missing => some messages
            -- `i` is no number any more, or infinite.
            | some (.number none _) => some (messages + 1)
            | some (.number (some size) content) =>
                parseIncomingArrayAt turns (content + size + 1) (messages + 1)

end

/-- The loops come to an end. -/
def Terminates (number : Payload → Option Int) (arr : Payload) : Prop :=
  ∃ lineTurns turns, (parseIncomingArrayAt number arr lineTurns turns 0 0).isSome = true

/-! ## Where the loops get to -/

/-- The first line break from here on. -/
structure LineEnd (arr : Payload) (i stop : Nat) : Prop where
  le : i ≤ stop
  lineBreak : arr[stop]? = some '\n'
  first : ∀ k, i ≤ k → k < stop → arr[k]? ≠ some '\n'

/-- There is none. -/
def Endless (arr : Payload) (i : Nat) : Prop := ∀ k, i ≤ k → arr[k]? ≠ some '\n'

/-- A message is looked for here, and its serial. -/
structure MessageAt (arr : Payload) (i : Nat) : Prop where
  left : i + 4 ≤ arr.length
  type : arr[i]? = some 'T' ∨ arr[i]? = some 'B'
  preamble : arr[i + 1]? = some '0' ∨ arr[i + 2]? = some 'x'

/-- Its size is looked for behind a line that ends here. -/
structure SizeAt (arr : Payload) (i stop : Nat) : Prop where
  message : MessageAt arr i
  serial : LineEnd arr (i + 3) stop
  preamble : arr[stop + 1]? = some '0' ∨ arr[stop + 2]? = some 'x'

/-- A line of the message here has no end. -/
def Stuck (arr : Payload) (position : Int) : Prop :=
  ∃ i : Nat, position = i ∧
    (MessageAt arr i ∧ Endless arr (i + 3) ∨ ∃ stop, SizeAt arr i stop ∧ Endless arr (stop + 3))

/-- From the message here to the next one. -/
def Next (number : Payload → Option Int) (arr : Payload) (position next : Int) : Prop :=
  ∃ i stop sizeStop : Nat, ∃ size : Int, position = i ∧ SizeAt arr i stop ∧
    LineEnd arr (stop + 3) sizeStop ∧
    number ((arr.drop (stop + 3)).take (sizeStop - (stop + 3))) = some size ∧
    next = (sizeStop + 1 : Nat) + size + 1

section

variable {number : Payload → Option Int} {arr : Payload} {lineTurns turns i stop messages : Nat}
  {position next : Int}

theorem LineEnd.unique {stop' : Nat} (h : LineEnd arr i stop) (h' : LineEnd arr i stop') :
    stop = stop' := by
  rcases Nat.lt_trichotomy stop stop' with hlt | heq | hlt
  · exact absurd h.lineBreak (h'.first stop h.le hlt)
  · exact heq
  · exact absurd h'.lineBreak (h.first stop' h'.le hlt)

theorem LineEnd.not_endless (h : LineEnd arr i stop) : ¬ Endless arr i :=
  fun hnone => hnone stop h.le h.lineBreak

theorem LineEnd.lt (h : LineEnd arr i stop) : stop < arr.length :=
  (List.getElem?_eq_some_iff.mp h.lineBreak).1

theorem lineEnd_of_skipLine (h : skipLine arr turns i = some stop) : LineEnd arr i stop := by
  induction turns generalizing i with
  | zero => cases h
  | succ turns ih =>
      rw [skipLine] at h
      split at h
      case isTrue hbreak =>
        cases h
        exact ⟨Nat.le_refl _, hbreak, fun k hle hlt => by omega⟩
      case isFalse hnot =>
        have hrest := ih h
        refine ⟨Nat.le_of_succ_le hrest.le, hrest.lineBreak, fun k hle hlt => ?_⟩
        rcases Nat.eq_or_lt_of_le hle with rfl | hlt'
        · exact hnot
        · exact hrest.first k hlt' hlt

theorem skipLine_of_lineEnd (h : LineEnd arr i stop) (hturns : stop < i + turns) :
    skipLine arr turns i = some stop := by
  induction turns generalizing i with
  | zero =>
      have hle := h.le
      omega
  | succ turns ih =>
      rw [skipLine]
      rcases Nat.eq_or_lt_of_le h.le with rfl | hlt
      · rw [if_pos h.lineBreak]
      · rw [if_neg (h.first i (Nat.le_refl i) hlt)]
        apply ih _ (by omega)
        exact ⟨hlt, h.lineBreak, fun k hle => h.first k (Nat.le_of_succ_le hle)⟩

theorem exists_lineEnd (h : ¬ Endless arr i) : ∃ stop, LineEnd arr i stop := by
  have hexists : ∃ k, i ≤ k ∧ arr[k]? = some '\n' := by
    by_contra hnone
    exact h fun k hle hbreak => hnone ⟨k, hle, hbreak⟩
  have hspec := Nat.find_spec hexists
  refine ⟨Nat.find hexists, hspec.1, hspec.2, fun k hle hlt hbreak => ?_⟩
  exact Nat.find_min hexists hlt ⟨hle, hbreak⟩

/-- With turns for more than the array is long, only a line without an end has no result. -/
theorem endless_of_skipLine (h : skipLine arr lineTurns i = none)
    (hturns : arr.length < lineTurns) : Endless arr i := by
  by_contra hsome
  rcases exists_lineEnd hsome with ⟨stop, hstop⟩
  have hlt := hstop.lt
  rw [skipLine_of_lineEnd hstop (by omega)] at h
  cases h

/-- How a number is read. -/
inductive NumberCase (number : Payload → Option Int) (arr : Payload) (lineTurns i : Nat) :
    Option NumberAt → Prop
  | missing (hmissing : ¬ (arr[i]? = some '0' ∨ arr[i + 1]? = some 'x')) :
      NumberCase number arr lineTurns i (some .missing)
  | endless (hpreamble : arr[i]? = some '0' ∨ arr[i + 1]? = some 'x')
      (hendless : arr.length < lineTurns → Endless arr (i + 2)) :
      NumberCase number arr lineTurns i none
  | number {stop : Nat} (hpreamble : arr[i]? = some '0' ∨ arr[i + 1]? = some 'x')
      (hstop : LineEnd arr (i + 2) stop) : NumberCase number arr lineTurns i
        (some (.number (number ((arr.drop (i + 2)).take (stop - (i + 2)))) (stop + 1)))

theorem numberCase (number : Payload → Option Int) (arr : Payload) (lineTurns i : Nat) :
    NumberCase number arr lineTurns i (readNumberAt number arr lineTurns i) := by
  rw [readNumberAt]
  by_cases hmissing : arr[i]? ≠ some '0' ∧ arr[i + 1]? ≠ some 'x'
  case pos =>
    rw [if_pos hmissing]
    exact .missing (not_or.mpr hmissing)
  case neg =>
    have hpreamble : arr[i]? = some '0' ∨ arr[i + 1]? = some 'x' := by
      by_contra hnone
      exact hmissing (not_or.mp hnone)
    rw [if_neg hmissing]
    cases hskip : skipLine arr lineTurns (i + 2) with
    | none =>
        simp only [hskip, Option.map_none]
        exact .endless hpreamble (endless_of_skipLine hskip)
    | some stop =>
        simp only [hskip, Option.map_some]
        exact .number hpreamble (lineEnd_of_skipLine hskip)

/-- What one turn of the outer loop does. -/
inductive TurnCase (number : Payload → Option Int) (arr : Payload) (lineTurns turns : Nat)
    (position : Int) (messages : Nat) : Option Nat → Prop
  | ended (count : Nat) (hstuck : ¬ Stuck arr position)
      (hnext : ∀ next, ¬ Next number arr position next) :
      TurnCase number arr lineTurns turns position messages (some count)
  | endless (hstuck : arr.length < lineTurns → Stuck arr position) :
      TurnCase number arr lineTurns turns position messages none
  | next {next : Int} (hstuck : ¬ Stuck arr position) (hnext : Next number arr position next)
      (honly : ∀ next', Next number arr position next' → next' = next) :
      TurnCase number arr lineTurns turns position messages
        (parseIncomingArrayAt number arr lineTurns turns next (messages + 1))

theorem Stuck.message (h : Stuck arr position) : ∃ i : Nat, position = i ∧ MessageAt arr i := by
  rcases h with ⟨i, hi, ⟨hmessage, -⟩ | ⟨stop, hsize, -⟩⟩
  · exact ⟨i, hi, hmessage⟩
  · exact ⟨i, hi, hsize.message⟩

theorem Next.message (h : Next number arr position next) :
    ∃ i : Nat, position = i ∧ MessageAt arr i := by
  rcases h with ⟨i, stop, sizeStop, size, hi, hsize, -⟩
  exact ⟨i, hi, hsize.message⟩

/-- Where no message is, the loop is left. -/
theorem TurnCase.of_noMessage {count : Nat}
    (h : ∀ i : Nat, position = i → ¬ MessageAt arr i) :
    TurnCase number arr lineTurns turns position messages (some count) := by
  apply TurnCase.ended
  · intro hstuck
    rcases hstuck.message with ⟨i, hi, hmessage⟩
    exact h i hi hmessage
  · intro next hnext
    rcases hnext.message with ⟨i, hi, hmessage⟩
    exact h i hi hmessage

/-- The serial has been read, and the line of the size is reached or its preamble is missing. -/
theorem turnCase_of_serial (hmessage : MessageAt arr i)
    (hserial : LineEnd arr (i + 3) stop) :
    TurnCase number arr lineTurns turns i messages
      (match readNumberAt number arr lineTurns (stop + 1) with
        | none => none
        | some .missing => some messages
        | some (.number none _) => some (messages + 1)
        | some (.number (some size) content) =>
            parseIncomingArrayAt number arr lineTurns turns (content + size + 1)
              (messages + 1)) := by
  -- the serial has one end only
  have honly : ∀ stop', SizeAt arr i stop' → stop' = stop :=
    fun stop' hsize => hsize.serial.unique hserial
  have hsize := numberCase number arr lineTurns (stop + 1)
  generalize readNumberAt number arr lineTurns (stop + 1) = read at hsize ⊢
  cases hsize with
  | missing hmissing =>
      have hnone : ∀ stop', ¬ SizeAt arr i stop' := by
        intro stop' hsize
        rw [honly stop' hsize] at hsize
        exact hmissing hsize.preamble
      apply TurnCase.ended
      · rintro ⟨i', hi, ⟨-, hendless⟩ | ⟨stop', hsize, -⟩⟩
        · cases Int.ofNat.inj hi
          exact hserial.not_endless hendless
        · cases Int.ofNat.inj hi
          exact hnone stop' hsize
      · rintro next ⟨i', stop', sizeStop, size, hi, hsize, -⟩
        cases Int.ofNat.inj hi
        exact hnone stop' hsize
  | endless hpreamble hendless =>
      exact .endless fun hturns =>
        ⟨i, rfl, .inr ⟨stop, ⟨hmessage, hserial, hpreamble⟩, hendless hturns⟩⟩
  | @number sizeStop hpreamble hsizeStop =>
      have hnot : ¬ Stuck arr i := by
        rintro ⟨i', hi, ⟨-, hendless⟩ | ⟨stop', hsize, hendless⟩⟩
        · cases Int.ofNat.inj hi
          exact hserial.not_endless hendless
        · cases Int.ofNat.inj hi
          rw [honly stop' hsize] at hendless
          exact hsizeStop.not_endless hendless
      cases hvalue : number ((arr.drop (stop + 1 + 2)).take (sizeStop - (stop + 1 + 2))) with
      | none =>
          apply TurnCase.ended _ hnot
          rintro next ⟨i', stop', sizeStop', size, hi, hsize, hsizeStop', hnumber, -⟩
          cases Int.ofNat.inj hi
          cases honly stop' hsize
          cases hsizeStop'.unique hsizeStop
          cases hvalue.symm.trans hnumber
      | some size =>
          apply TurnCase.next hnot
          · exact ⟨i, stop, sizeStop, size, rfl, ⟨hmessage, hserial, hpreamble⟩, hsizeStop, hvalue,
              rfl⟩
          · rintro next ⟨i', stop', sizeStop', size', hi, hsize, hsizeStop', hnumber, rfl⟩
            cases Int.ofNat.inj hi
            cases honly stop' hsize
            cases hsizeStop'.unique hsizeStop
            cases hvalue.symm.trans hnumber
            rfl

theorem turnCase (number : Payload → Option Int) (arr : Payload) (lineTurns turns : Nat)
    (position : Int) (messages : Nat) :
    TurnCase number arr lineTurns turns position messages
      (parseIncomingArrayAt number arr lineTurns (turns + 1) position messages) := by
  rw [parseIncomingArrayAt]
  split_ifs with hbehind hshort hnegative htype
  · exact .of_noMessage fun i hi hmessage => by have hleft := hmessage.left; omega
  · exact .of_noMessage fun i hi hmessage => by have hleft := hmessage.left; omega
  · exact .of_noMessage fun i hi _ => by omega
  · apply TurnCase.of_noMessage
    intro i hi hmessage
    rw [hi, Int.toNat_natCast] at htype
    rcases hmessage.type with h | h
    · exact htype.1 h
    · exact htype.2 h
  · rcases Int.eq_ofNat_of_zero_le (Int.not_lt.mp hnegative) with ⟨i, rfl⟩
    rw [Int.toNat_natCast] at htype ⊢
    have htype : arr[i]? = some 'T' ∨ arr[i]? = some 'B' := by
      by_contra hnone
      exact htype (not_or.mp hnone)
    have hserial := numberCase number arr lineTurns (i + 1)
    generalize readNumberAt number arr lineTurns (i + 1) = read at hserial ⊢
    cases hserial with
    | missing hmissing =>
        apply TurnCase.of_noMessage
        intro i' hi hmessage
        cases Int.ofNat.inj hi
        exact hmissing hmessage.preamble
    | endless hpreamble hendless =>
        exact .endless fun hturns =>
          ⟨i, rfl, .inl ⟨⟨by omega, htype, hpreamble⟩, hendless hturns⟩⟩
    | number hpreamble hstop => exact turnCase_of_serial ⟨by omega, htype, hpreamble⟩ hstop

/-! ## Where the loops end -/

/-- Steps lead from positions in the array. -/
theorem finite_next (number : Payload → Option Int) (arr : Payload) :
    {position | ∃ next, Next number arr position next}.Finite := by
  apply (Set.finite_Icc (0 : Int) arr.length).subset
  rintro position ⟨next, hnext⟩
  rcases hnext.message with ⟨i, rfl, hmessage⟩
  have hleft := hmessage.left
  exact ⟨by omega, by omega⟩

/-- A run that ends gets to the end of every walk, and is stuck nowhere. -/
theorem ends_of_isSome
    (h : (parseIncomingArrayAt number arr lineTurns turns position messages).isSome = true) :
    Ends (Next number arr) position ∧
      ∀ next, ReflTransGen (Next number arr) position next → ¬ Stuck arr next := by
  induction turns generalizing position messages with
  | zero => cases h
  | succ turns ih =>
      have hturn := turnCase number arr lineTurns turns position messages
      generalize parseIncomingArrayAt number arr lineTurns (turns + 1) position messages = result
        at h hturn
      cases hturn with
      | ended count hstuck hnext =>
          apply And.intro (Ends.intro fun next hstep => absurd hstep (hnext next))
          intro next hwalk
          rcases ReflTransGen.cases_head hwalk with rfl | ⟨next', hstep, -⟩
          · exact hstuck
          · exact absurd hstep (hnext next')
      | endless => cases h
      | next hstuck hnext honly =>
          rcases ih h with ⟨hends, hfree⟩
          apply And.intro
          · apply Ends.intro
            intro next' hstep
            rw [honly next' hstep]
            exact hends
          · intro next' hwalk
            rcases ReflTransGen.cases_head hwalk with rfl | ⟨next'', hstep, hrest⟩
            · exact hstuck
            · rw [honly next'' hstep] at hrest
              exact hfree next' hrest

/-- With enough turns for each line, a walk with an end is gone to the end. -/
theorem exists_turns_of_ends (lineTurns : Nat) (hends : Ends (Next number arr) position)
    (hfree : ∀ next, ReflTransGen (Next number arr) position next → ¬ Stuck arr next)
    (hturns : arr.length < lineTurns) (messages : Nat) :
    ∃ turns,
      (parseIncomingArrayAt number arr lineTurns turns position messages).isSome = true := by
  induction hends generalizing messages with
  | intro position _ ih =>
      by_cases hmore : ∃ next, Next number arr position next
      case pos =>
        rcases hmore with ⟨next, hnext⟩
        rcases ih next hnext (fun next' hwalk => hfree next' (.head hnext hwalk)) (messages + 1) with
          ⟨turns, hsome⟩
        refine ⟨turns + 1, ?_⟩
        have hturn := turnCase number arr lineTurns turns position messages
        generalize parseIncomingArrayAt number arr lineTurns (turns + 1) position messages = result
          at hturn ⊢
        cases hturn with
        | ended => rfl
        | endless hstuck => exact absurd (hstuck hturns) (hfree position .refl)
        | next _ _ honly =>
            rw [← honly next hnext]
            exact hsome
      case neg =>
        refine ⟨1, ?_⟩
        have hturn := turnCase number arr lineTurns 0 position messages
        generalize parseIncomingArrayAt number arr lineTurns (0 + 1) position messages = result
          at hturn ⊢
        cases hturn with
        | ended => rfl
        | endless hstuck => exact absurd (hstuck hturns) (hfree position .refl)
        | next _ hnext => exact absurd ⟨_, hnext⟩ hmore

theorem terminates_iff (number : Payload → Option Int) (arr : Payload) :
    Terminates number arr ↔
      ∀ position, ReflTransGen (Next number arr) 0 position →
        ¬ Stuck arr position ∧ ¬ TransGen (Next number arr) position position := by
  constructor
  · rintro ⟨lineTurns, turns, hsome⟩ position hwalk
    rcases ends_of_isSome hsome with ⟨hends, hfree⟩
    exact ⟨hfree position hwalk, (hends.reaches hwalk).not_cycle⟩
  · intro h
    have hends : Ends (Next number arr) 0 :=
      ends_of_acyclic (finite_next number arr) fun position hwalk => (h position hwalk).2
    rcases exists_turns_of_ends (arr.length + 1) hends
      (fun position hwalk => (h position hwalk).1) (Nat.lt_succ_self _) 0 with ⟨turns, hsome⟩
    exact ⟨arr.length + 1, turns, hsome⟩

end

/-- Proxied frames are parsed within the buffer and by whole frames if and only if what comes can be
parsed, a message that is complete is there in full if its size is a number of 64 bits, and the loop
over a response ends if and only if it neither misses a line break nor gets back to where it was. -/
theorem parse_iff (h : ProxyProtocolHandler) (pieces : List Payload)
    (number : Payload → Option Int) (arr : Payload) :
    (SafelyFed h [] pieces ↔ ∀ q, Behind pieces.flatten q → Sound q) ∧
      (∀ p type serial lengthStr content, IsCut p type serial lengthStr content →
        serial.length + lengthStr.length + 3 + strtoull64 lengthStr + 1 < 2 ^ 64 →
        hasCompleteMessageAt p = some true →
          serial.length + lengthStr.length + 3 + strtoull64 lengthStr + 1 ≤ p.length) ∧
      (Terminates number arr ↔
        ∀ position, ReflTransGen (Next number arr) 0 position →
          ¬ Stuck arr position ∧ ¬ TransGen (Next number arr) position position) :=
  ⟨safelyFed_iff h pieces, fun _ _ _ _ _ => length_le_of_hasCompleteMessageAt,
    terminates_iff number arr⟩

/-- The largest length of all, and a number without a line break. -/
theorem not_parse_large :
    hasCompleteMessageAt "T1\nffffffffffffffff\n".toList = some true ∧
      ¬ SafelyFed .start [] ["T1\nffffffffffffffff\n".toList] ∧
      ¬ Terminates (fun _ => none) "T0x1".toList := by
  have hlarge : (parseEmitIncomingAt 21 .start "T1\nffffffffffffffff\n".toList).isNone = true := by
    decide +kernel
  refine ⟨by decide +kernel, ?_, ?_⟩
  · rintro ⟨status, h', left, hparse, -⟩
    have hsome : (parseEmitIncomingAt 21 .start "T1\nffffffffffffffff\n".toList).isNone = false :=
      congrArg Option.isNone hparse
    cases hlarge.symm.trans hsome
  · rw [terminates_iff]
    intro h
    apply (h 0 .refl).1
    refine ⟨0, rfl, .inl ⟨⟨by decide, by decide, by decide⟩, ?_⟩⟩
    intro k _ hbreak
    have hmem : '\n' ∈ "T0x1".toList := List.mem_of_getElem? hbreak
    exact absurd hmem (by decide)

end CoolOnline.Proxy
