import CoolOnline.Common.Protocol
import CoolOnline.Library.InputStream

/-! # Searching a stream

`processToMatch` of `common/Util.cpp`, the search for a word through one window of a stream after the
other, with `copyToMatch` and `seekToMatch`.
-/

namespace CoolOnline

open InputStream

namespace Util

def readBufferSize : Nat := 64 * 1024

/-- Whether a word is found, the stream in front of it then, and what is passed over, which
`seekToMatch` does not write. -/
structure Match where
  found : Bool
  input : InputStream Char
  written : Payload

/-- One window after the other, each with what of the last is too short to be the word. -/
def processWindows (window : Nat) (search : Payload) :
    Nat → InputStream Char → Payload → Payload → Match
  | 0, input, carry, written => ⟨false, input, written ++ carry⟩
  | fuel + 1, input, carry, written =>
      if input.failed then ⟨false, input, written ++ carry⟩
      else
        let bytesRead := input.read window
        if bytesRead.1 = [] then ⟨false, bytesRead.2, written ++ carry⟩
        else
          let view := carry ++ bytesRead.1
          match Search.cutAt search view with
          | some (before, _) =>
              ⟨true, bytesRead.2.clear.seekCur (-((view.length : Int) - before.length)),
                written ++ before⟩
          | none =>
              let bytesToWrite := view.length - (search.length - 1)
              processWindows window search fuel bytesRead.2 (view.drop bytesToWrite)
                (written ++ view.take bytesToWrite)

def processToMatch (input : InputStream Char) (search : Payload) : Match :=
  processWindows readBufferSize search (input.rest.length + 1) input [] []

section Windows

variable {input : InputStream Char} {search carry written before after text : Payload}
  {window fuel : Nat}

/-- What does not begin in a window without the word begins in what is carried over. -/
theorem cutAt_carry (hnone : Search.cutAt search text = none) (hsearch : search ≠ [])
    (more : Payload) :
    Search.cutAt search (text ++ more) =
      (Search.cutAt search (text.drop (text.length - (search.length - 1)) ++ more)).map fun parts =>
        (text.take (text.length - (search.length - 1)) ++ parts.1, parts.2) := by
  have hpos := List.length_pos_iff.mpr hsearch
  have hsplit : text ++ more = text.take (text.length - (search.length - 1)) ++
      (text.drop (text.length - (search.length - 1)) ++ more) := by
    rw [← List.append_assoc, List.take_append_drop]
  rw [hsplit]
  apply Search.cutAt_append_left
  intro b a hoccurs
  rw [← hsplit, ← List.append_assoc] at hoccurs
  by_contra hlt
  have hstart : b ++ search <+: text := by
    apply List.prefix_of_prefix_length_le ⟨a, hoccurs.symm⟩ (List.prefix_append text more)
    rw [List.length_take] at hlt
    rw [List.length_append]
    omega
  exact Search.cutAt_eq_none_iff.mp hnone ((List.suffix_append b search).isInfix.trans hstart.isInfix)

/-- A stream that cannot be read any more ends the loop. -/
theorem processWindows_failed (window : Nat) (search : Payload) (fuel : Nat)
    (h : input.failed = true) (carry written : Payload) :
    processWindows window search fuel input carry written = ⟨false, input, written ++ carry⟩ := by
  cases fuel with
  | zero => rfl
  | succ fuel => rw [processWindows, if_pos h]

/-- What is found in what has been carried over and what is still to come: the stream is in front of
the first occurrence, else at its end with all passed over. -/
def outcome (search : Payload) (input : InputStream Char) (carry written : Payload) : Match :=
  match Search.cutAt search (carry ++ input.rest) with
  | some (before, _) =>
      ⟨true, ⟨input.data, input.pos - carry.length + before.length, false⟩, written ++ before⟩
  | none =>
      ⟨false, ⟨input.data, max input.pos input.data.length, true⟩, written ++ (carry ++ input.rest)⟩

/-- Without the word in a full window the search goes on behind it. -/
theorem outcome_next {view : Payload} (heq : carry ++ input.rest.take window = view)
    (hsearch : search ≠ []) (hpos : carry.length ≤ input.pos) (hfull : window ≤ input.rest.length)
    (hview : Search.cutAt search view = none) :
    outcome search input carry written =
      outcome search ⟨input.data, input.pos + window, false⟩
        (view.drop (view.length - (search.length - 1)))
        (written ++ view.take (view.length - (search.length - 1))) := by
  have hrest : input.rest.length = input.data.length - input.pos := List.length_drop
  have hnext : (⟨input.data, input.pos + window, false⟩ : InputStream Char).rest =
      input.rest.drop window := List.drop_drop.symm
  have hlength : view.length = carry.length + window := by
    rw [← heq, List.length_append, List.length_take, Nat.min_eq_left hfull]
  have hsplit : carry ++ input.rest = view ++ input.rest.drop window := by
    rw [← heq, List.append_assoc, List.take_append_drop]
  have hcarried := cutAt_carry hview hsearch (input.rest.drop window)
  have htaken : (view.take (view.length - (search.length - 1))).length =
      view.length - (search.length - 1) := by
    rw [List.length_take]
    omega
  have hdropped : (view.drop (view.length - (search.length - 1))).length =
      view.length - (view.length - (search.length - 1)) := List.length_drop
  rw [outcome, outcome, hnext, hsplit, hcarried]
  cases Search.cutAt search
      (view.drop (view.length - (search.length - 1)) ++ input.rest.drop window) with
  | some parts =>
      simp only [Option.map_some, List.length_append, htaken, hdropped, List.append_assoc]
      congr 2
      omega
  | none =>
      have hend : max (input.pos + window) input.data.length =
          max input.pos input.data.length := by omega
      simp only [Option.map_none, hend, List.append_assoc]
      rw [← List.append_assoc (view.take _), List.take_append_drop]

/-- The windows find what there is to be found. -/
theorem processWindows_eq (hwindow : 0 < window) (hcarry : carry.length < search.length)
    (hready : input.failed = false) (hpos : carry.length ≤ input.pos)
    (hfuel : input.rest.length < fuel) :
    processWindows window search fuel input carry written = outcome search input carry written := by
  induction fuel generalizing input carry written with
  | zero => exact absurd hfuel (Nat.not_lt_zero _)
  | succ fuel ih =>
      have hsearch : search ≠ [] :=
        List.length_pos_iff.mp (Nat.lt_of_le_of_lt (Nat.zero_le _) hcarry)
      have hrest : input.rest.length = input.data.length - input.pos := List.length_drop
      rw [processWindows, if_neg (by rw [hready]; simp), read_of_ready hready]
      by_cases hnil : input.rest = []
      case pos =>
        -- what is carried over is too short to be the word
        have hend : input.data.length ≤ input.pos := List.drop_eq_nil_iff.mp hnil
        have hnone : Search.cutAt search carry = none :=
          Search.cutAt_eq_none_iff.mpr fun hoccurs => absurd hoccurs.length_le (Nat.not_le_of_lt hcarry)
        rw [outcome]
        simp only [hnil, List.take_nil, if_true, List.length_nil, Nat.add_zero, List.append_nil, hnone,
          Nat.max_eq_left hend, hwindow, decide_true]
      case neg =>
        have hlength := List.length_pos_iff.mpr hnil
        have hne : input.rest.take window ≠ [] := by
          rw [Ne, List.take_eq_nil_iff, not_or]
          exact ⟨Nat.ne_of_gt hwindow, hnil⟩
        have hsplit : carry ++ input.rest =
            (carry ++ input.rest.take window) ++ input.rest.drop window := by
          rw [List.append_assoc, List.take_append_drop]
        simp only [hne, if_false]
        cases hview : Search.cutAt search (carry ++ input.rest.take window) with
        | some parts =>
            have hwhole := Search.cutAt_append hview (input.rest.drop window)
            have hparts := congrArg List.length (Search.cutAt_eq_some hview).1
            simp only [List.length_append, List.length_take] at hparts
            have htarget : ((input.pos + (input.rest.take window).length : Nat) : Int) +
                -(((carry ++ input.rest.take window).length : Int) - parts.1.length) =
                ((input.pos - carry.length + parts.1.length : Nat) : Int) := by
              rw [List.length_append]
              omega
            rw [outcome, hsplit, hwhole]
            simp only [clear, seekCur, seekTo, htarget, Bool.false_eq_true, if_false,
              Int.toNat_natCast]
            rw [if_pos (by omega)]
        | none =>
            rcases Nat.lt_or_ge input.rest.length window with hshort | hfull
            · -- the last window
              have hlast : input.rest.take window = input.rest :=
                List.take_of_length_le (Nat.le_of_lt hshort)
              have hend : input.pos + input.rest.length = max input.pos input.data.length := by omega
              rw [hlast] at hview
              rw [processWindows_failed _ _ _ (decide_eq_true hshort), outcome, hview, hlast,
                List.append_assoc, List.take_append_drop, hend, decide_eq_true hshort]
            · have htake : (input.rest.take window).length = window := by
                rw [List.length_take, Nat.min_eq_left hfull]
              have hview' : (carry ++ input.rest.take window).length = carry.length + window := by
                rw [List.length_append, htake]
              have hnext : (⟨input.data, input.pos + window, false⟩ : InputStream Char).rest =
                  input.rest.drop window := List.drop_drop.symm
              rw [outcome_next rfl hsearch hpos hfull hview, htake,
                decide_eq_false (Nat.not_lt_of_le hfull)]
              apply ih
              · rw [List.length_drop]
                omega
              · rfl
              · rw [List.length_drop]
                change _ ≤ input.pos + window
                omega
              · rw [hnext, List.length_drop]
                omega

theorem processToMatch_eq (hsearch : search ≠ []) (hready : input.failed = false) :
    processToMatch input search = outcome search input [] [] :=
  processWindows_eq (by decide) (List.length_pos_iff.mpr hsearch) hready (Nat.zero_le _)
    (Nat.lt_succ_self _)

/-- In a stream that can be read, the first occurrence of a word is found, and comes next. -/
theorem processToMatch_of_at (h : At input text) (hsearch : search ≠ [])
    (hcut : Search.cutAt search text = some (before, after)) :
    ∃ next, processToMatch input search = ⟨true, next, before⟩ ∧ At next (search ++ after) := by
  have hrest : Search.cutAt search ([] ++ input.rest) = some (before, after) := by
    rw [List.nil_append, h.rest_eq, hcut]
  have hfound := processToMatch_eq hsearch h.ready
  rw [outcome, hrest] at hfound
  have hnext : At input (before ++ (search ++ after)) := (Search.cutAt_eq_some hcut).1 ▸ h
  exact ⟨_, hfound, hnext.advance⟩

end Windows

/-! ## The two searches -/

/-- Whether the word is found, and the stream then. -/
def seekToMatch (input : InputStream Char) (search : Payload) : Bool × InputStream Char :=
  let result := processToMatch input search
  (result.found, result.input)

/-- The same with what is written. -/
def copyToMatch (input : InputStream Char) (out search : Payload) :
    Bool × InputStream Char × Payload :=
  let result := processToMatch input search
  (result.found, result.input, out ++ result.written)

/-- From a position in the data on, both stop in front of the first occurrence of the word if there
is one, else at the end. -/
structure FindsFirst (data : Payload) (pos : Nat) (out search : Payload) : Prop where
  occurs (h : search <:+: data.drop pos) : ∃ before after,
    data.drop pos = before ++ (search ++ after) ∧
      (∀ b a, data.drop pos = b ++ (search ++ a) → before.length ≤ b.length) ∧
      copyToMatch ⟨data, pos, false⟩ out search =
        (true, ⟨data, pos + before.length, false⟩, out ++ before) ∧
      seekToMatch ⟨data, pos, false⟩ search = (true, ⟨data, pos + before.length, false⟩)
  missing (h : ¬ search <:+: data.drop pos) :
    copyToMatch ⟨data, pos, false⟩ out search =
        (false, ⟨data, max pos data.length, true⟩, out ++ data.drop pos) ∧
      seekToMatch ⟨data, pos, false⟩ search = (false, ⟨data, max pos data.length, true⟩)

theorem findsFirst (data : Payload) (pos : Nat) (out : Payload) {search : Payload}
    (hsearch : search ≠ []) : FindsFirst data pos out search := by
  have houtcome : processToMatch ⟨data, pos, false⟩ search =
      outcome search ⟨data, pos, false⟩ [] [] := processToMatch_eq hsearch rfl
  constructor
  · intro hoccurs
    obtain ⟨⟨before, after⟩, hcut⟩ :=
      Option.isSome_iff_exists.mp (Search.isSome_cutAt_of_occurs hoccurs)
    obtain ⟨hsplit, hfirst⟩ := Search.cutAt_eq_some hcut
    have hfound : processToMatch ⟨data, pos, false⟩ search =
        ⟨true, ⟨data, pos + before.length, false⟩, before⟩ := by
      rw [houtcome, outcome, List.nil_append, rest, hcut]
      rfl
    refine ⟨before, after, hsplit, fun b a hother => ?_, ?_, ?_⟩
    · exact hfirst.length_le (hsplit.symm.trans hother)
    · rw [copyToMatch, hfound]
    · rw [seekToMatch, hfound]
  · intro hmissing
    have hpassed : processToMatch ⟨data, pos, false⟩ search =
        ⟨false, ⟨data, max pos data.length, true⟩, data.drop pos⟩ := by
      rw [houtcome, outcome, List.nil_append, rest, Search.cutAt_eq_none_iff.mpr hmissing]
      rfl
    constructor
    · rw [copyToMatch, hpassed]
    · rw [seekToMatch, hpassed]

theorem findsFirst_overlapping : FindsFirst "xaab".toList 1 [] "ab".toList :=
  findsFirst _ _ _ (by decide)

end Util

end CoolOnline
