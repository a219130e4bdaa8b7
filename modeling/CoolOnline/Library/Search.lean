import Mathlib.Data.List.Basic

/-! # The first occurrence of a word

A text is cut at the first occurrence of a word in it. Where that is does not depend on what
follows the word.
-/

namespace CoolOnline.Search

variable {α : Type*} {word before before' after text more : List α}

/-- The word, put behind this, occurs there for the first time. -/
def FirstAt (word before : List α) : Prop :=
  ∀ b a, before ++ word = b ++ (word ++ a) → a = []

theorem firstAt_nil (word : List α) : FirstAt word [] := by
  intro b a h
  have hlength := congrArg List.length h
  simp only [List.length_append, List.length_nil] at hlength
  exact List.length_eq_zero_iff.mp (by omega)

/-- A text that ends in the word without its own end has the word in front only if it is the
word. -/
theorem FirstAt.of_cons {c : α} (h : FirstAt word (c :: before)) : FirstAt word before :=
  fun b a hsplit => h (c :: b) a (by rw [List.cons_append, hsplit, List.cons_append])

/-- A longer word does not occur before its last part does. -/
theorem FirstAt.of_append {front : List α} (h : FirstAt word (before ++ front)) :
    FirstAt (front ++ word) before :=
  fun b a hsplit => h (b ++ front) a (by simpa only [List.append_assoc] using hsplit)

theorem FirstAt.not_occurs (h : FirstAt word before) (hword : word ≠ []) : ¬ word <:+: before := by
  rintro ⟨b, a, rfl⟩
  have hnil := h b (a ++ word) (by simp only [List.append_assoc])
  exact hword (List.append_eq_nil_iff.mp hnil).2

theorem FirstAt.not_prefix {c : α} (h : FirstAt word (c :: before)) (after : List α) :
    ¬ word <+: c :: before ++ (word ++ after) := by
  intro hstart
  have hshort : word <+: c :: before ++ word := by
    refine List.prefix_of_prefix_length_le hstart ?_
      (by simp only [List.length_append, List.length_cons]; omega)
    rw [← List.append_assoc]
    exact List.prefix_append _ _
  obtain ⟨a, ha⟩ := hshort
  have hnil := h [] a (by rw [List.nil_append, ha])
  subst hnil
  have hlength := congrArg List.length ha
  simp only [List.length_append, List.length_cons, List.append_nil] at hlength
  omega

/-- No occurrence of the word starts before the first one. -/
theorem FirstAt.length_le {b a : List α} (h : FirstAt word before)
    (hsplit : before ++ (word ++ after) = b ++ (word ++ a)) : before.length ≤ b.length := by
  by_contra hlt
  have hstart : b ++ word <+: before ++ word := by
    refine List.prefix_of_prefix_length_le ⟨a, ?_⟩ (List.prefix_append (before ++ word) after)
      (by simp only [List.length_append]; omega)
    rw [List.append_assoc, List.append_assoc, hsplit]
  obtain ⟨x, hx⟩ := hstart
  have hnil := h b x (by rw [← hx, List.append_assoc])
  subst hnil
  have hlength := congrArg List.length hx
  simp only [List.append_nil, List.length_append] at hlength
  omega

theorem firstAt_cons {c : α} (h : FirstAt word before) (hnot : ¬ word <+: c :: (before ++ word)) :
    FirstAt word (c :: before) := by
  intro b a hsplit
  cases b with
  | nil => exact absurd ⟨a, hsplit.symm⟩ hnot
  | cons d b =>
      rw [List.cons_append, List.cons_append] at hsplit
      exact h b a (List.cons.inj hsplit).2

/-- A word whose first element does not come again in it is not begun again within itself. -/
theorem firstAt_of_not_occurs {c : α} {tail : List α} (hc : c ∉ tail)
    (h : ¬ c :: tail <:+: before) : FirstAt (c :: tail) before := by
  intro b a hsplit
  by_contra hne
  rcases List.append_eq_append_iff.mp hsplit with ⟨middle, hb, hword⟩ | ⟨middle, hbefore, hword⟩
  · -- the word would be in what follows `before`, and something behind it
    have hlength := congrArg List.length hword
    have hpos := List.length_pos_iff.mpr hne
    simp only [List.length_append] at hlength
    omega
  · cases middle with
    | nil =>
        have hlength := congrArg List.length hword
        have hpos := List.length_pos_iff.mpr hne
        simp only [List.nil_append, List.length_append] at hlength
        omega
    | cons d middle =>
        rw [List.cons_append, List.cons_append] at hword
        obtain ⟨rfl, htail⟩ := List.cons.inj hword
        rcases List.append_eq_append_iff.mp htail with ⟨w, hm, -⟩ | ⟨w, hm, hw⟩
        · exact h (hbefore ▸ (List.infix_append b (c :: tail) w).trans (by simp [hm]))
        · cases w with
          | nil =>
              rw [List.append_nil] at hm
              exact h (hbefore ▸ hm ▸ (List.suffix_append b (c :: tail)).isInfix)
          | cons e w =>
              rw [List.cons_append] at hw
              have he := (List.cons.inj hw).1
              rw [hm, ← he] at hc
              exact hc (by simp)

/-- A word whose first element does not come again in it begins at most once where that is. -/
theorem infix_append_cons {c : α} {tail : List α} (hc : c ∉ tail)
    (h : c :: tail <:+: before ++ c :: more) : c :: tail <:+: before ∨ c :: tail <:+: c :: more := by
  rcases h with ⟨b, a, hsplit⟩
  rw [List.append_assoc] at hsplit
  rcases List.append_eq_append_iff.mp hsplit with ⟨m, hbefore, hword⟩ | ⟨m, hb, hmore⟩
  · rw [List.cons_append] at hword
    cases m with
    | nil => exact .inr ⟨[], a, by rw [List.nil_append, List.cons_append, hword, List.nil_append]⟩
    | cons d m =>
        rcases List.cons.inj hword with ⟨rfl, htail⟩
        rcases List.append_eq_append_iff.mp htail with ⟨x, rfl, -⟩ | ⟨x, htail, hx⟩
        · exact .inl ⟨b, x, by rw [hbefore, List.append_assoc, List.cons_append]⟩
        · cases x with
          | nil =>
              rw [List.append_nil] at htail
              exact .inl ⟨b, [], by rw [hbefore, List.append_nil, htail]⟩
          | cons e x =>
              rw [List.cons_append] at hx
              rcases List.cons.inj hx with ⟨rfl, -⟩
              exact absurd (htail ▸ List.mem_append_right m List.mem_cons_self) hc
  · exact .inr ⟨m, a, by rw [List.append_assoc, ← hmore]⟩

variable [DecidableEq α]

/-- What comes before the first occurrence of the word, and what comes behind it. -/
def cutAt (word : List α) : List α → Option (List α × List α)
  | [] => if word = [] then some ([], []) else none
  | c :: rest =>
      if word <+: c :: rest then some ([], (c :: rest).drop word.length)
      else (cutAt word rest).map fun parts => (c :: parts.1, parts.2)

theorem cutAt_of_firstAt (h : FirstAt word before) (after : List α) :
    cutAt word (before ++ (word ++ after)) = some (before, after) := by
  induction before with
  | nil =>
      rw [List.nil_append]
      cases htext : word ++ after with
      | nil =>
          obtain ⟨rfl, rfl⟩ := List.append_eq_nil_iff.mp htext
          rfl
      | cons c rest =>
          have hstart : word <+: c :: rest := htext ▸ List.prefix_append word after
          rw [cutAt, if_pos hstart, ← htext, List.drop_left]
  | cons c before ih =>
      have hnot : ¬ word <+: c :: (before ++ (word ++ after)) := h.not_prefix after
      rw [List.cons_append, cutAt, if_neg hnot, ih h.of_cons]
      rfl

theorem cutAt_eq_some (h : cutAt word text = some (before, after)) :
    text = before ++ (word ++ after) ∧ FirstAt word before := by
  induction text generalizing before with
  | nil =>
      rw [cutAt] at h
      split at h
      · rename_i hword
        cases h
        rw [hword]
        exact ⟨rfl, firstAt_nil []⟩
      · cases h
  | cons c rest ih =>
      rw [cutAt] at h
      split at h
      · rename_i hstart
        obtain ⟨behind, hbehind⟩ := hstart
        cases h
        rw [← hbehind, List.drop_left]
        exact ⟨rfl, firstAt_nil word⟩
      · rename_i hnot
        obtain ⟨⟨b, a⟩, hcut, hparts⟩ := Option.map_eq_some_iff.mp h
        cases hparts
        have hrest := ih hcut
        obtain ⟨rfl, hfirst⟩ := hrest
        refine ⟨rfl, firstAt_cons hfirst fun hstart => hnot (hstart.trans ?_)⟩
        rw [← List.append_assoc, ← List.cons_append]
        exact List.prefix_append _ _

theorem cutAt_eq_some_iff :
    cutAt word text = some (before, after) ↔
      text = before ++ (word ++ after) ∧ FirstAt word before := by
  constructor
  · exact cutAt_eq_some
  · rintro ⟨rfl, h⟩
    exact cutAt_of_firstAt h after

theorem cutAt_append (h : cutAt word text = some (before, after)) (more : List α) :
    cutAt word (text ++ more) = some (before, after ++ more) := by
  obtain ⟨rfl, hfirst⟩ := cutAt_eq_some h
  simpa only [List.append_assoc] using cutAt_of_firstAt hfirst (after ++ more)

theorem isSome_cutAt_of_occurs (h : word <:+: text) : (cutAt word text).isSome = true := by
  induction text with
  | nil =>
      rw [cutAt, if_pos (List.eq_nil_of_infix_nil h)]
      rfl
  | cons c rest ih =>
      rw [cutAt]
      split
      · rfl
      · rename_i hnot
        have hrest : word <:+: rest := by
          rcases List.infix_cons_iff.mp h with hstart | hoccurs
          · exact absurd hstart hnot
          · exact hoccurs
        rw [Option.isSome_map]
        exact ih hrest

/-- Where the word occurs, the text is cut there or before. -/
theorem exists_cutAt (h : text = before ++ (word ++ more)) :
    ∃ first behind between, cutAt word text = some (first, behind) ∧
      word ++ behind = between ++ (word ++ more) := by
  have hoccurs : word <:+: text := ⟨before, more, by rw [h, List.append_assoc]⟩
  rcases Option.isSome_iff_exists.mp (isSome_cutAt_of_occurs hoccurs) with ⟨⟨first, behind⟩, hcut⟩
  rcases cutAt_eq_some hcut with ⟨hsplit, hfirst⟩
  have hsame := hsplit.symm.trans h
  have hlength := hfirst.length_le hsame
  rcases List.append_eq_append_iff.mp hsame with ⟨between, -, hbehind⟩ | ⟨between, heq, hmore⟩
  · exact ⟨first, behind, between, hcut, hbehind⟩
  · have hnil : between = [] := by
      have hsum := congrArg List.length heq
      rw [List.length_append] at hsum
      exact List.length_eq_zero_iff.mp (by omega)
    subst hnil
    exact ⟨first, behind, [], hcut, hmore.symm⟩

/-- Where a text is cut is where it is cut before the rest of it has come, if it is. -/
theorem cutAt_of_prefix (hstart : text <+: before ++ (word ++ after)) (hfirst : FirstAt word before) :
    cutAt word text = none ∧ text.length < before.length + word.length ∨
      ∃ behind, cutAt word text = some (before, behind) ∧ text = before ++ (word ++ behind) ∧
        behind <+: after := by
  obtain ⟨more, hmore⟩ := hstart
  cases hcut : cutAt word text with
  | none =>
      left
      refine ⟨rfl, Nat.lt_of_not_le fun hle => ?_⟩
      have hword : before ++ word <+: text := by
        refine List.prefix_of_prefix_length_le ?_ ⟨more, hmore⟩ (by simpa using hle)
        rw [← List.append_assoc]
        exact List.prefix_append _ _
      have hsome := isSome_cutAt_of_occurs (((List.suffix_append before word).isInfix).trans
        hword.isInfix)
      rw [hcut] at hsome
      cases hsome
  | some parts =>
      right
      have happend := cutAt_append hcut more
      rw [hmore, cutAt_of_firstAt hfirst] at happend
      obtain ⟨hbefore, hafter⟩ := Prod.mk.inj (Option.some.inj happend)
      refine ⟨parts.2, by rw [hbefore], ?_, ⟨more, hafter.symm⟩⟩
      rw [hbefore]
      exact (cutAt_eq_some hcut).1

instance (word before : List α) : Decidable (FirstAt word before) :=
  decidable_of_iff (cutAt word (before ++ word) = some (before, [])) <| by
    rw [cutAt_eq_some_iff, List.append_nil]
    exact ⟨And.right, fun h => ⟨rfl, h⟩⟩

/-- In front of where the first occurrence can be nothing has to be looked at. -/
theorem cutAt_append_left {front : List α}
    (h : ∀ b a, front ++ text = b ++ (word ++ a) → front.length ≤ b.length) :
    cutAt word (front ++ text) = (cutAt word text).map fun parts => (front ++ parts.1, parts.2) := by
  induction front with
  | nil => exact Option.map_id'.symm
  | cons c front ih =>
      have hnot : ¬ word <+: c :: (front ++ text) := by
        rintro ⟨a, ha⟩
        exact absurd (h [] a ha.symm) (by simp)
      have hrest := ih fun b a hsplit =>
        Nat.le_of_succ_le_succ (h (c :: b) a (congrArg (c :: ·) hsplit))
      rw [List.cons_append, cutAt, if_neg hnot, hrest, Option.map_map]
      rfl

theorem cutAt_eq_none_iff : cutAt word text = none ↔ ¬ word <:+: text := by
  constructor
  · intro h hoccurs
    have hsome := isSome_cutAt_of_occurs hoccurs
    rw [h] at hsome
    cases hsome
  · intro h
    cases hcut : cutAt word text with
    | none => rfl
    | some parts =>
        have hsplit := (cutAt_eq_some hcut).1
        exact absurd ⟨parts.1, parts.2, by rw [hsplit, List.append_assoc]⟩ h

/-! ## The last occurrence -/

/-- The text from the last occurrence of the word on. -/
def lastAt (word : List α) : List α → Option (List α)
  | [] => if word = [] then some [] else none
  | c :: rest => (lastAt word rest).or (if word <+: c :: rest then some (c :: rest) else none)

theorem lastAt_append (h : lastAt word text = some after) (before : List α) :
    lastAt word (before ++ text) = some after := by
  induction before with
  | nil => exact h
  | cons c before ih => rw [List.cons_append, lastAt, ih, Option.some_or]

theorem lastAt_eq_none_iff (hword : word ≠ []) : lastAt word text = none ↔ ¬ word <:+: text := by
  induction text with
  | nil => simp [lastAt, hword]
  | cons c rest ih =>
      have hstart : (if word <+: c :: rest then some (c :: rest) else none) = none ↔
          ¬ word <+: c :: rest := by
        split <;> simp_all
      rw [lastAt, Option.or_eq_none_iff, ih, hstart, List.infix_cons_iff, not_or, and_comm]

theorem lastAt_eq_some (h : lastAt word text = some after) : word <+: after := by
  induction text with
  | nil =>
      rw [lastAt] at h
      split at h
      · cases h
        subst word
        exact List.nil_prefix
      · cases h
  | cons c rest ih =>
      rw [lastAt, Option.or_eq_some_iff] at h
      rcases h with hrest | ⟨-, hhere⟩
      · exact ih hrest
      · split at hhere
        case isTrue hstart =>
          cases hhere
          exact hstart
        case isFalse => cases hhere

end CoolOnline.Search
