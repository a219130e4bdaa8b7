import CoolOnline.Common.TokenViews
import CoolOnline.Library.Runs

/-! # Tokens as runs

`tokenize` and `tokenize_foreach` of `common/StringVector.hpp`, the two copies of one loop: what the
one lists and the other hands to a function are the runs between the delimiters of the first line.
-/

namespace CoolOnline.TokenViews.StringVector

open Runs

/-! ## Calling a function on each token -/

section

variable {σ : Type} (func : Nat → Payload → σ → Bool × σ) (data : Payload) (delimiter : Char)

/-- What is done behind the loop of `tokenize_foreach`. -/
def foreachLast (i start index : Nat) (s : σ) : σ :=
  if start ≠ i ∧ data[start]? ≠ some delimiter ∧ data[start]? ≠ some '\n' then
    (func index ((data.drop start).take (i - start)) s).2
  else s

/-- The loop of `tokenize_foreach`, over what is left of the data from position `i` on. The function
changes a state. -/
def foreachLoop : Payload → Nat → Nat → Nat → σ → σ
  | [], i, start, index, s => foreachLast func data delimiter i start index s
  | c :: rest, i, start, index, s =>
      if c = '\n' then foreachLast func data delimiter i start index s
      else if c = delimiter then
        if start ≠ i ∧ data[start]? ≠ some delimiter then
          let called := func index ((data.drop start).take (i - start)) s
          if called.1 then called.2 else foreachLoop rest (i + 1) i (index + 1) called.2
        else foreachLoop rest (i + 1) i index s
      else if data[start]? = some delimiter then foreachLoop rest (i + 1) (start + 1) index s
      else foreachLoop rest (i + 1) start index s

/-- `tokenize_foreach`: call func on each token until func returns true or we run out of tokens. -/
def tokenizeForeach (s : σ) : σ :=
  if data = [] ∨ data.head? = some '\x00' then s else foreachLoop func data delimiter data 0 0 0 s

/-- The function is called on one text after the other, with their numbers, until it returns true. -/
def visit : Nat → List Payload → σ → σ
  | _, [], s => s
  | index, text :: texts, s =>
      let called := func index text s
      if called.1 then called.2 else visit (index + 1) texts called.2

end

/-! ## One loop in two copies -/

/-- The tokens made from position `i` on. -/
def loopTokens (data : Payload) (delimiter : Char) (rest : Payload) (i start : Nat) :
    List StringToken :=
  let loop := tokenizeLoop data delimiter rest i start []
  closeTokens data delimiter loop.1 loop.2.1 loop.2.2

section

variable {data rest : Payload} {delimiter c : Char} {i start : Nat}

theorem closeTokens_append (data : Payload) (delimiter : Char) (start i : Nat)
    (tokens : List StringToken) :
    closeTokens data delimiter start i tokens = tokens ++ closeTokens data delimiter start i [] := by
  rw [closeTokens, closeTokens]
  split
  · rw [List.nil_append]
  · rw [List.append_nil]

/-- The tokens that there are already stay in front. -/
theorem closeTokens_tokenizeLoop (data : Payload) (delimiter : Char) (rest : Payload)
    (i start : Nat) (tokens : List StringToken) :
    closeTokens data delimiter (tokenizeLoop data delimiter rest i start tokens).1
        (tokenizeLoop data delimiter rest i start tokens).2.1
        (tokenizeLoop data delimiter rest i start tokens).2.2 =
      tokens ++ loopTokens data delimiter rest i start := by
  induction rest generalizing i start tokens with
  | nil => exact closeTokens_append data delimiter start i tokens
  | cons c rest ih =>
      rw [loopTokens, tokenizeLoop, tokenizeLoop]
      split
      · exact closeTokens_append data delimiter start i tokens
      · split
        · simp only [ih]
          split
          · rw [List.nil_append, List.append_assoc]
          · rw [List.nil_append]
        · split
          · rw [ih, ih, List.nil_append]
          · rw [ih, ih, List.nil_append]

theorem loopTokens_cons (data : Payload) (delimiter c : Char) (rest : Payload) (i start : Nat) :
    loopTokens data delimiter (c :: rest) i start =
      if c = '\n' then closeTokens data delimiter start i []
      else if c = delimiter then
        if start ≠ i ∧ data[start]? ≠ some delimiter then
          ⟨start, i - start⟩ :: loopTokens data delimiter rest (i + 1) i
        else loopTokens data delimiter rest (i + 1) i
      else loopTokens data delimiter rest (i + 1)
        (if data[start]? = some delimiter then start + 1 else start) := by
  rw [loopTokens, tokenizeLoop]
  split
  · rfl
  · split
    · simp only [closeTokens_tokenizeLoop]
      split <;> rfl
    · split <;> rfl

theorem foreachLast_eq {σ : Type} (func : Nat → Payload → σ → Bool × σ) (data : Payload)
    (delimiter : Char) (i start index : Nat) (s : σ) :
    foreachLast func data delimiter i start index s =
      visit func index ((closeTokens data delimiter start i []).map (text ⟨data, []⟩)) s := by
  rw [foreachLast, closeTokens]
  split
  · simp [visit, text]
  · rfl

/-- Both loops make the same tokens. -/
theorem foreachLoop_eq {σ : Type} (func : Nat → Payload → σ → Bool × σ) (data : Payload)
    (delimiter : Char) (rest : Payload) (i start index : Nat) (s : σ) :
    foreachLoop func data delimiter rest i start index s =
      visit func index ((loopTokens data delimiter rest i start).map (text ⟨data, []⟩)) s := by
  induction rest generalizing i start index s with
  | nil => exact foreachLast_eq func data delimiter i start index s
  | cons c rest ih =>
      rw [foreachLoop, loopTokens_cons]
      split
      · exact foreachLast_eq func data delimiter i start index s
      · split
        · split
          · rw [List.map_cons, visit]
            simp only [ih]
            rfl
          · exact ih (i + 1) i index s
        · split
          · exact ih (i + 1) (start + 1) index s
          · exact ih (i + 1) start index s

/-! ## Tokens and runs -/

/-- Where a token begins and ends. -/
def tokenRun (token : StringToken) : Nat × Nat := (token.index, token.index + token.length)

theorem tokenRun_injective : Function.Injective tokenRun := by
  intro token other heq
  rw [tokenRun, tokenRun, Prod.mk.injEq] at heq
  cases token
  cases other
  simp only [StringToken.mk.injEq] at heq ⊢
  omega

variable {firstLine pending : Payload} {runs : List (Nat × Nat)}

/-- What has been read is in front of the rest. -/
theorem Pending.data_eq (h : Pending data delimiter rest start i pending) :
    data = data.take i ++ rest ∧ (data.take i).length = i := by
  have hread {front : Payload} (hdata : data = front ++ rest) (hlength : front.length = i) :
      data = data.take i ++ rest ∧ (data.take i).length = i := by
    have htake : data.take i = front := by rw [hdata, List.take_left' hlength]
    rw [htake]
    exact ⟨hdata, hlength⟩
  cases h with
  | delimiter front h =>
      exact hread (h.trans (List.append_cons front delimiter rest)) List.length_append
  | field front _ h => exact hread h List.length_append

theorem Pending.start_eq (h : Pending data delimiter rest start i pending) (hne : pending ≠ []) :
    start = i - pending.length ∧ start < i := by
  have hlength := List.length_pos_iff.mpr hne
  cases h with
  | delimiter front h => exact absurd rfl hne
  | field front _ h => exact ⟨by omega, by omega⟩

/-- The loop has come to `i` in the line. The field that it is inside of begins where the scan for
runs does. -/
structure Reads (data : Payload) (delimiter : Char) (firstLine rest : Payload) (start i : Nat)
    (pending : Payload) (runs : List (Nat × Nat)) : Prop where
  state : Pending data delimiter rest start i pending
  line_eq : firstLine = data.take i ++ rest.takeWhile (· != '\n')
  scan : Scan delimiter firstLine i (i - pending.length) runs

/-- A token is made of the run that is read, if there is one. -/
theorem Reads.closeTokens_runs (h : Reads data delimiter firstLine rest start i pending runs) :
    (closeTokens data delimiter start i []).map tokenRun = scanned i (i - pending.length) [] := by
  rcases h.state.cases_start with ⟨rfl, hstart⟩ | ⟨hfield, hne, -, hchar⟩
  · rw [closeTokens, if_neg (by tauto), scanned, if_neg (by simp)]
    rfl
  · obtain ⟨hstart, hlt⟩ := h.state.start_eq hfield.1
    rw [closeTokens, if_pos ⟨hne, hchar⟩, ← hstart, scanned, if_pos hlt,
      List.nil_append, List.map_singleton, tokenRun, Nat.add_sub_cancel' (Nat.le_of_lt hlt),
      List.nil_append]

/-- The line goes on with the next character, which is no line feed. -/
theorem Reads.next (h : Reads data delimiter firstLine (c :: rest) start i pending runs)
    (hc : c ≠ '\n') :
    firstLine[i]? = some c ∧ firstLine = data.take (i + 1) ++ rest.takeWhile (· != '\n') := by
  obtain ⟨hdata, hlength⟩ := h.state.data_eq
  have hline := h.line_eq
  rw [List.takeWhile_cons_of_pos (by simp [hc])] at hline
  constructor
  · rw [hline, List.getElem?_append_right (Nat.le_of_eq hlength), hlength, Nat.sub_self,
      List.getElem?_cons_zero]
  · have htake : data.take (i + 1) = data.take i ++ [c] := by
      rw [List.take_add_one]
      congr 1
      rw [hdata, List.getElem?_append_right (Nat.le_of_eq hlength), hlength, Nat.sub_self]
      rfl
    rw [htake, hline, List.append_assoc, List.singleton_append]

theorem Reads.separator (h : Reads data c firstLine (c :: rest) start i pending runs)
    (hc : c ≠ '\n') :
    Reads data c firstLine rest i (i + 1) [] (scanned i (i - pending.length) runs) :=
  ⟨h.state.next_delimiter, (h.next hc).2, h.scan.separator (h.next hc).1⟩

theorem Reads.other (h : Reads data delimiter firstLine (c :: rest) start i pending runs)
    (hc : c ≠ '\n') (hne : c ≠ delimiter) :
    Reads data delimiter firstLine rest (if data[start]? = some delimiter then start + 1 else start)
      (i + 1) (pending ++ [c]) runs := by
  obtain ⟨hat, hline⟩ := h.next hc
  refine ⟨h.state.next_char hne hc, hline, ?_⟩
  rw [List.length_append, List.length_singleton, Nat.add_sub_add_right]
  exact h.scan.other (by rw [hat]; exact fun heq => hne (Option.some.inj heq))

/-- At the end of the line all its runs are listed. -/
theorem Reads.listed_of_end (h : Reads data delimiter firstLine rest start i pending runs)
    (hend : firstLine = data.take i) :
    Listed delimiter firstLine firstLine.length
      (runs ++ (closeTokens data delimiter start i []).map tokenRun) := by
  have hlength : firstLine.length = i := by rw [hend, h.state.data_eq.2]
  rw [h.closeTokens_runs, ← scanned_append, hlength]
  exact h.scan.listed_of_end hlength

/-- The tokens made from a place in the line on are the runs that are not listed yet. -/
theorem Reads.listed (h : Reads data delimiter firstLine rest start i pending runs) :
    Listed delimiter firstLine firstLine.length
      (runs ++ (loopTokens data delimiter rest i start).map tokenRun) := by
  induction rest generalizing i start pending runs with
  | nil => exact h.listed_of_end (by rw [h.line_eq, List.takeWhile_nil, List.append_nil])
  | cons c rest ih =>
      rw [loopTokens_cons]
      by_cases hline : c = '\n'
      case pos =>
        rw [if_pos hline]
        refine h.listed_of_end ?_
        rw [h.line_eq, List.takeWhile_cons_of_neg (by simp [hline]), List.append_nil]
      rw [if_neg hline]
      by_cases hc : c = delimiter
      case pos =>
        subst hc
        have hnext := ih (h.separator hline)
        rw [scanned_append, ← h.closeTokens_runs, ← closeTokens_eq h.state] at hnext
        rw [if_pos rfl]
        split
        case isTrue hinside =>
          rwa [if_pos hinside, List.append_assoc, ← List.map_append] at hnext
        case isFalse hnot => rwa [if_neg hnot, List.map_nil, List.append_nil] at hnext
      case neg =>
        rw [if_neg hc]
        exact ih (h.other hline hc)

end

/-! ## What tokenizing is -/

/-- The tokens are the runs of the first line, in order, and the function is called on them. -/
structure TokenizesRuns (data : Payload) (delimiter : Char) : Prop where
  mem_iff (token : StringToken) : token ∈ (tokenizeChars data delimiter).tokens ↔
    data.head? ≠ some '\x00' ∧ IsRun delimiter (data.takeWhile (· != '\n')) token.index
      (token.index + token.length)
  ordered : (tokenizeChars data delimiter).tokens.Pairwise fun token next =>
    token.index + token.length < next.index
  string_eq (h : (tokenizeChars data delimiter).tokens ≠ []) :
    (tokenizeChars data delimiter).string = data
  foreach (σ : Type) (func : Nat → Payload → σ → Bool × σ) (s : σ) :
    tokenizeForeach func data delimiter s = visit func 0
      ((tokenizeChars data delimiter).tokens.map (tokenizeChars data delimiter).text) s

theorem tokenizesRuns (data : Payload) (delimiter : Char) : TokenizesRuns data delimiter := by
  by_cases hnone : data = [] ∨ data.head? = some '\x00'
  case pos =>
    have hvector : tokenizeChars data delimiter = ⟨[], []⟩ := if_pos hnone
    refine ⟨fun token => ?_, ?_, fun h => ?_, fun σ func s => ?_⟩
    · rw [hvector]
      refine iff_of_false List.not_mem_nil fun h => ?_
      rcases hnone with rfl | hnul
      · exact absurd (Nat.lt_of_lt_of_le h.2.nonempty h.2.inside) (Nat.not_lt_zero _)
      · exact h.1 hnul
    · rw [hvector]
      exact .nil
    · rw [hvector] at h
      exact absurd rfl h
    · rw [hvector, tokenizeForeach, if_pos hnone]
      rfl
  case neg =>
    have htokens : tokenizeData data delimiter = loopTokens data delimiter data 0 0 := if_neg hnone
    have hvector : tokenizeChars data delimiter = ⟨data, loopTokens data delimiter data 0 0⟩ :=
      htokens ▸ if_neg hnone
    have hreads : Reads data delimiter (data.takeWhile (· != '\n')) data 0 0 [] [] :=
      ⟨.field [] [] rfl List.not_mem_nil List.not_mem_nil, rfl, scan_nil⟩
    have hlisted := hreads.listed
    rw [List.nil_append] at hlisted
    rw [not_or] at hnone
    refine ⟨fun token => ?_, ?_, fun _ => by rw [hvector], fun σ func s => ?_⟩
    · rw [hvector, ← List.mem_map_of_injective tokenRun_injective]
      refine (hlisted.mem_iff (tokenRun token)).trans ⟨fun h => ⟨hnone.2, h.1⟩, fun h => ?_⟩
      exact ⟨h.2, h.2.inside⟩
    · rw [hvector]
      exact List.pairwise_map.mp hlisted.ordered
    · rw [hvector, tokenizeForeach, if_neg (not_or.mpr hnone)]
      exact foreachLoop_eq func data delimiter data 0 0 0 s

end CoolOnline.TokenViews.StringVector
