import CoolOnline.Wsd.PreProcessedVariables

/-! # What preprocessing keeps

The variables of a file come one after another, so that the file is put together again from its
segments wherever each commented variable is written as it is put together.
-/

namespace CoolOnline.PreProcessedFile

section

variable {data : Payload} {a b c : ℕ}

/-! ## Slices -/

theorem slice_append (hab : a ≤ b) (hbc : b ≤ c) :
    slice data a b ++ slice data b c = slice data a c := by
  have hdrop : data.drop b = (data.drop a).drop (b - a) := by
    rw [List.drop_drop, Nat.add_sub_cancel' hab]
  rw [slice, slice, slice, hdrop, show c - a = (b - a) + (c - b) by omega, List.take_add]

theorem slice_length (data : Payload) (a : ℕ) : slice data a data.length = data.drop a := by
  rw [slice, List.take_of_length_le (by rw [List.length_drop])]

theorem slice_single {char : Char} (h : data[a]? = some char) : slice data a (a + 1) = [char] := by
  obtain ⟨hlt, hget⟩ := List.getElem?_eq_some_iff.mp h
  rw [slice, Nat.add_sub_cancel_left, List.drop_eq_getElem_cons hlt, hget]
  rfl

theorem mem_slice {char : Char} (h : char ∈ slice data a b) :
    ∃ i, a ≤ i ∧ i < b ∧ data[i]? = some char := by
  obtain ⟨i, hi⟩ := List.getElem?_of_mem h
  have hlt := (List.getElem?_eq_some_iff.mp hi).1
  rw [slice, List.length_take] at hlt
  rw [slice, List.getElem?_take_of_lt (by omega), List.getElem?_drop] at hi
  exact ⟨a + i, Nat.le_add_right a i, by omega, hi⟩

/-! ## The variables in order -/

/-- Variables that come one after another from `lastpos` on. -/
def InOrder (data : Payload) : ℕ → List Take → Prop
  | _, [] => True
  | lastpos, t :: ts =>
      TakeOk data t ∧ lastpos ≤ t.start ∧ t.start ≤ t.stop ∧ t.stop ≤ data.length ∧
        InOrder data t.stop ts

theorem TakeOk.bounds {t : Take} (h : TakeOk data t) :
    t.start ≤ t.stop ∧ t.stop ≤ data.length := by
  cases h with
  | inl hcomment =>
      obtain ⟨-, varstart, varend, endpos, hspan, ht⟩ := hcomment
      have hlt := (List.getElem?_eq_some_iff.mp hspan.closes).1
      have horder := hspan.order
      have hstop : t.stop = endpos + 1 := congrArg Take.stop ht
      omega
  | inr hvariable =>
      obtain ⟨varend, hspan, ht⟩ := hvariable
      have hlt := (List.getElem?_eq_some_iff.mp hspan.nameStop).1
      have horder := hspan.order
      have hstop : t.stop = varend + 1 := congrArg Take.stop ht
      omega

theorem InOrder.of_le {ts : List Take} (h : InOrder data b ts) (hle : a ≤ b) :
    InOrder data a ts := by
  cases ts with
  | nil => trivial
  | cons t ts =>
      obtain ⟨hok, hstart, hrest⟩ := h
      exact ⟨hok, hle.trans hstart, hrest⟩

/-- What one turn takes is in front of what the turns behind it take. -/
theorem inOrder_turn {pos next : ℕ} {ts : List Take} (hpos : pos ≤ next)
    (hts : InOrder data next ts)
    (hnext : ∀ t, (turn data pos).turn.taken = some t → t.stop ≤ next) :
    InOrder data pos ((turn data pos).turn.taken.toList ++ ts) := by
  cases htaken : (turn data pos).turn.taken with
  | none => exact hts.of_le hpos
  | some t =>
      obtain ⟨hle, hok, -⟩ := turn_taken htaken
      obtain ⟨hstop, hlength⟩ := hok.bounds
      exact ⟨hok, hle, hstop, hlength, hts.of_le (hnext t htaken)⟩

theorem inOrder_takesFrom (data : Payload) (pos : ℕ) :
    InOrder data pos (takesFrom data pos) := by
  induction pos using positions.induct data with
  | case1 pos ih =>
      cases hfollowing : following data pos with
      | none =>
          rw [takesFrom_of_none hfollowing, ← List.append_nil (Option.toList _)]
          refine inOrder_turn (le_max_left pos data.length) trivial fun t htaken => ?_
          exact (turn_taken htaken).2.1.bounds.2.trans (le_max_right pos data.length)
      | some next =>
          have hnext := (following_eq_some.mp hfollowing).1
          rw [takesFrom_of_some hfollowing]
          refine inOrder_turn (Nat.le_of_lt (lt_of_next hnext)) (ih next hfollowing) ?_
          intro t htaken
          rw [(turn_taken htaken).2.2] at hnext
          cases hnext
          exact Nat.le_refl _

/-! ## Texts of variables -/

/-- The text of a variable in the data is that of its segment. -/
def Take.Exact (data : Payload) (t : Take) : Prop := slice data t.start t.stop = t.segment.text

theorem VariableSpan.slice_eq {newpos varend : ℕ} (h : VariableSpan data newpos varend) :
    slice data newpos (varend + 1) =
      "%".toList ++ slice data (newpos + 1) varend ++ "%".toList := by
  have horder := h.order
  rw [← slice_append (Nat.le_succ newpos) (show newpos + 1 ≤ varend + 1 by omega),
    ← slice_append (show newpos + 1 ≤ varend from horder) (Nat.le_succ varend),
    slice_single h.opens, slice_single h.nameStop]
  rfl

/-- The text of a tag, with the end apart. -/
theorem CommentSpan.slice_eq {newpos varstart varend endpos : ℕ}
    (h : CommentSpan data newpos varstart varend endpos) :
    slice data newpos (endpos + 1) = slice data newpos endpos ++ ['>'] := by
  have horder := h.order
  rw [← slice_append (show newpos ≤ endpos by omega) (Nat.le_succ endpos), slice_single h.closes]

theorem CommentSpan.not_mem {newpos varstart varend endpos : ℕ}
    (h : CommentSpan data newpos varstart varend endpos) : '>' ∉ slice data newpos endpos := by
  intro hmem
  obtain ⟨i, hi, hlt, hc⟩ := mem_slice hmem
  cases Nat.eq_or_lt_of_le hi with
  | inl heq =>
      rw [← heq, h.opens] at hc
      cases hc
  | inr hgt => exact (h.inside i '>' hgt hlt hc).2 rfl

theorem CommentSpan.not_mem_name {newpos varstart varend endpos : ℕ}
    (h : CommentSpan data newpos varstart varend endpos) :
    '>' ∉ "<!--%".toList ++ slice data (varstart + 1) varend ++ "%--".toList := by
  have hname : '>' ∉ slice data (varstart + 1) varend := by
    intro hmem
    obtain ⟨i, hi, hlt, hc⟩ := mem_slice hmem
    obtain ⟨c, hc', hnamed⟩ := h.named i hi hlt
    rw [hc] at hc'
    cases hc'
    exact absurd hnamed (by decide)
  simp [hname]

/-- Two texts up to their first `'>'`. -/
theorem eq_of_append_eq {u u' r r' : Payload} (hu : '>' ∉ u) (hu' : '>' ∉ u')
    (h : u ++ ['>'] ++ r = u' ++ ['>'] ++ r') : u = u' ∧ r = r' := by
  have htake {w : Payload} (hw : '>' ∉ w) (r : Payload) :
      (w ++ ['>'] ++ r).takeWhile (· ≠ '>') = w := by
    have hall : ∀ c ∈ w, decide (c ≠ '>') = true := fun c hc =>
      decide_eq_true fun heq => hw (heq ▸ hc)
    rw [List.append_assoc, List.takeWhile_append_of_pos hall]
    simp
  have hsame : u = u' := by rw [← htake hu r, h, htake hu' r']
  rw [hsame] at h
  exact ⟨hsame, List.append_cancel_left h⟩

/-! ## Putting the file together -/

/-- The data with the variables that have a value replaced by it. -/
def replaced (data : Payload) (values : Payload → Option Payload) : ℕ → List Take → Payload
  | lastpos, [] => slice data lastpos data.length
  | lastpos, t :: ts =>
      slice data lastpos t.start ++ (t.segment.value values).getD (slice data t.start t.stop) ++
        replaced data values t.stop ts

theorem substitute_literal (data : Payload) (values : Payload → Option Payload) (a b : ℕ)
    (segments : List Segment) :
    substitute values (literal data a b ++ segments) =
      slice data a b ++ substitute values segments := by
  rw [literal]
  split
  case isTrue => rfl
  case isFalse hle =>
    rw [slice, Nat.sub_eq_zero_of_le (Nat.le_of_not_lt hle), List.take_zero]
    rfl

theorem substitute_assemble_cons (values : Payload → Option Payload) (lastpos : ℕ) (t : Take)
    (ts : List Take) :
    substitute values (assemble data lastpos (t :: ts)) =
      slice data lastpos t.start ++ ((t.segment.value values).getD t.segment.text ++
        substitute values (assemble data t.stop ts)) := by
  rw [assemble, substitute_literal]
  rfl

theorem substitute_assemble_nil (values : Payload → Option Payload) (lastpos : ℕ) :
    substitute values (assemble data lastpos []) = slice data lastpos data.length := by
  have h := substitute_literal data values lastpos data.length []
  rw [List.append_nil] at h
  rw [assemble, h]
  exact List.append_nil _

theorem substitute_assemble {ts : List Take} (values : Payload → Option Payload)
    (hexact : ∀ t ∈ ts, t.Exact data) (lastpos : ℕ) :
    substitute values (assemble data lastpos ts) = replaced data values lastpos ts := by
  induction ts generalizing lastpos with
  | nil => exact substitute_assemble_nil values lastpos
  | cons t ts ih =>
      have ht : t.Exact data := hexact t List.mem_cons_self
      rw [substitute_assemble_cons, ih fun t' ht' => hexact t' (List.mem_cons_of_mem t ht'), ← ht,
        replaced, List.append_assoc]

/-- Without values nothing is replaced. -/
theorem replaced_none {ts : List Take} {lastpos : ℕ} (h : InOrder data lastpos ts)
    (hlastpos : lastpos ≤ data.length) :
    replaced data (fun _ => none) lastpos ts = data.drop lastpos := by
  induction ts generalizing lastpos with
  | nil => exact slice_length data lastpos
  | cons t ts ih =>
      obtain ⟨-, hstart, hstop, hlength, hrest⟩ := h
      have hvalue : t.segment.value (fun _ => none) = none := by cases t.segment <;> rfl
      rw [replaced, hvalue, Option.getD_none, ih hrest hlength, slice_append hstart hstop,
        ← slice_length, ← slice_length, slice_append (hstart.trans hstop) hlength]

/-- If the file is put together as it was, each variable is. -/
theorem exact_of_substitute_eq {ts : List Take} {lastpos : ℕ} (h : InOrder data lastpos ts)
    (heq : substitute (fun _ => none) (assemble data lastpos ts) = data.drop lastpos) :
    ∀ t ∈ ts, t.Exact data := by
  induction ts generalizing lastpos with
  | nil => exact fun t ht => absurd ht List.not_mem_nil
  | cons t ts ih =>
      obtain ⟨hok, hstart, hstop, hlength, hrest⟩ := h
      have hvalue : t.segment.value (fun _ => none) = none := by cases t.segment <;> rfl
      have hdrop : data.drop lastpos =
          slice data lastpos t.start ++ (slice data t.start t.stop ++ data.drop t.stop) := by
        rw [← slice_length data lastpos, ← slice_length data t.stop, slice_append hstop hlength,
          slice_append hstart (hstop.trans hlength)]
      rw [substitute_assemble_cons, hvalue, Option.getD_none, hdrop] at heq
      have hsame := List.append_cancel_left heq
      have hboth : t.Exact data ∧
          substitute (fun _ => none) (assemble data t.stop ts) = data.drop t.stop := by
        cases hok with
        | inl hcomment =>
            obtain ⟨-, varstart, varend, endpos, hspan, ht⟩ := hcomment
            rw [ht] at hsame ⊢
            have htext : Segment.text (.commentedVariable (slice data (varstart + 1) varend)) =
                "<!--%".toList ++ slice data (varstart + 1) varend ++ "%--".toList ++ ['>'] := by
              simp [Segment.text]
            rw [htext, hspan.slice_eq] at hsame
            obtain ⟨hleft, hright⟩ := eq_of_append_eq hspan.not_mem_name hspan.not_mem hsame
            refine ⟨?_, hright⟩
            rw [Take.Exact, htext, hleft, hspan.slice_eq]
        | inr hvariable =>
            obtain ⟨varend, hspan, ht⟩ := hvariable
            rw [ht] at hsame ⊢
            have hexact : Take.Exact data
                ⟨t.start, varend + 1, .plainVariable (slice data (t.start + 1) varend)⟩ :=
              hspan.slice_eq
            refine ⟨hexact, ?_⟩
            rw [← hexact] at hsame
            exact List.append_cancel_left hsame
      intro t' ht'
      cases List.mem_cons.mp ht' with
      | inl heq => exact heq ▸ hboth.1
      | inr hmem => exact ih hrest hboth.2 t' hmem

end

/-! ## What is to be kept -/

/-- Each comment that contains a variable consists of it. -/
def CommentsExact (data : Payload) : Prop :=
  ∀ pos body, "<!--".toList ++ body ++ "-->".toList <+: data.drop pos →
    ¬ "-->".toList <:+: body ++ "--".toList →
    (∃ before name behind, body = before ++ "%".toList ++ name ++ "%".toList ++ behind ∧
      name ≠ [] ∧ ∀ c ∈ name, isNameChar c = true) →
    ∃ name, body = "%".toList ++ name ++ "%".toList ∧ ∀ c ∈ name, isNameChar c = true

/-- Without values a file is as it was; with values the variables that have one are replaced. -/
structure Restores (data : Payload) : Prop where
  unchanged : substitute (fun _ => none) (segments data) = data
  replaced (values : Payload → Option Payload) :
    substitute values (segments data) = replaced data values 0 (takes data)

/-- Nothing is lost, and only the data is indexed. -/
structure Preserves (data : Payload) : Prop where
  restores (h : CommentsExact data) : Restores data
  reads (i : ℕ) (hi : i ∈ reads data) : i < data.length

/-- Tags that are taken for comments with a variable are written as these are put together. -/
def NoneMistaken (data : Payload) : Prop :=
  ∀ newpos varstart varend endpos, CommentSpan data newpos varstart varend endpos →
    TakenAsComment data newpos →
    slice data newpos (endpos + 1) =
      "<!--%".toList ++ slice data (varstart + 1) varend ++ "%-->".toList

/-- No tag is mistaken where the comments are exact, and no turn comes to a name that is open at the
end. -/
structure WellWritten (data : Payload) : Prop where
  noneMistaken (h : CommentsExact data) : NoneMistaken data
  noneOpen (pos : ℕ) (hpos : pos ∈ positions data 0) : ¬ OpenAt data pos

theorem takes_exact_iff (data : Payload) :
    (∀ t ∈ takes data, t.Exact data) ↔ NoneMistaken data := by
  constructor
  · intro h newpos varstart varend endpos hspan htaken
    exact h _ (mem_takesFrom hspan htaken (Nat.zero_le newpos))
  · intro h t ht
    have hok : TakeOk data t := by
      obtain ⟨pos, -, htaken⟩ := List.mem_filterMap.mp ht
      exact (turn_taken htaken).2.1
    cases hok with
    | inl hcomment =>
        obtain ⟨htaken, varstart, varend, endpos, hspan, heq⟩ := hcomment
        rw [heq]
        exact h t.start varstart varend endpos hspan htaken
    | inr hvariable =>
        obtain ⟨varend, hspan, heq⟩ := hvariable
        rw [heq]
        exact hspan.slice_eq

theorem restores_iff (data : Payload) : Restores data ↔ NoneMistaken data := by
  have horder : InOrder data 0 (takes data) := inOrder_takesFrom data 0
  rw [← takes_exact_iff]
  constructor
  · intro h
    have hunchanged := h.unchanged
    rw [segments_eq] at hunchanged
    exact exact_of_substitute_eq horder hunchanged
  · intro hexact
    have hreplaced (values : Payload → Option Payload) :
        substitute values (segments data) = replaced data values 0 (takes data) := by
      rw [segments_eq]
      exact substitute_assemble values hexact 0
    exact ⟨(hreplaced _).trans (replaced_none horder (Nat.zero_le _)), hreplaced⟩

/-- Preprocessing keeps a file exactly when it is well written. -/
theorem preserves_iff (data : Payload) : Preserves data ↔ WellWritten data := by
  constructor
  · intro h
    exact ⟨fun hcomments => (restores_iff data).mp (h.restores hcomments),
      (reads_inside_iff data).mp h.reads⟩
  · intro h
    exact ⟨fun hcomments => (restores_iff data).mpr (h.noneMistaken hcomments),
      (reads_inside_iff data).mpr h.noneOpen⟩

theorem commentsExact_of_short {data : Payload} (h : data.length < 7) : CommentsExact data := by
  intro pos body hcomment
  have hlength := hcomment.length_le
  simp only [List.length_append, List.length_drop] at hlength
  have hmarks : "<!--".toList.length = 4 ∧ "-->".toList.length = 3 := by decide
  omega

/-- A tag with a variable in the last five characters. -/
theorem commentSpan_short : CommentSpan "<%A%>".toList 0 1 3 4 := by
  constructor
  case order => decide
  case opens => rfl
  case percent => rfl
  case nameStop => rfl
  case closes => rfl
  case inside =>
    intro i c hi hlt hc
    obtain rfl | rfl | rfl : i = 1 ∨ i = 2 ∨ i = 3 := by omega
    all_goals
      cases hc
      decide
  case before =>
    intro i hi hlt
    omega
  case named =>
    intro i hi hlt
    obtain rfl : i = 2 := by omega
    exact ⟨'A', rfl, by decide⟩

/-- A tag with a variable at the end, and a name that is open at the end. -/
theorem not_preserves_atEnd :
    ¬ Preserves "<%A%>".toList ∧ ¬ Preserves "a %AB".toList := by
  constructor
  · intro h
    have hnone := (restores_iff _).mp (h.restores (commentsExact_of_short (by decide)))
    have heq := hnone 0 1 3 4 commentSpan_short fun hlong => absurd hlong (by decide)
    exact absurd heq (by decide)
  · intro h
    have hpos : 0 ∈ positions "a %AB".toList 0 := by
      rw [positions]
      exact List.mem_cons_self
    have hopen : OpenAt "a %AB".toList 0 := by
      refine ⟨2, by decide, by decide, by decide, ?_⟩
      intro i hi hlt
      obtain rfl | rfl : i = 3 ∨ i = 4 := by
        have hlength : "a %AB".toList.length = 5 := by decide
        omega
      · exact ⟨'A', rfl, by decide⟩
      · exact ⟨'B', rfl, by decide⟩
    exact (reads_inside_iff _).mp h.reads 0 hpos hopen

end CoolOnline.PreProcessedFile
