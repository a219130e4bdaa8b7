import CoolOnline.Kit.LatestCallbacks

/-! # Merged tile invalidations

What the queued invalidations of a part and mode describe, and that merging them describes no
less, where the mode of every payload is read.
-/

namespace CoolOnline.Kit

open StringVector COOLProtocol LatestQueue

/-! ## What a payload describes -/

/-- The point is in the rectangle. -/
def inRectangle (x y w h : Int) (p : Int × Int) : Bool :=
  x ≤ p.1 && p.1 < x + w && y ≤ p.2 && p.2 < y + h

/-- The rectangle has sizes and ends that fit an `int`. -/
def isRectangle (x y w h : Int) : Bool :=
  0 ≤ x && 0 ≤ y && 0 ≤ w && 0 ≤ h && x + w ≤ intMax && y + h ≤ intMax

/-- `EMPTY, part`, `EMPTY, part, mode` or `x, y, w, h, part[, mode]`. -/
def isInvalidation (payload : Payload) : Bool :=
  match tokenize payload ' ' with
  | [first, _] | [first, _, _] => first == Word.empty
  | [x, y, w, h, _] | [x, y, w, h, _, _] =>
      x != Word.empty && isRectangle (atoi x) (atoi y) (atoi w) (atoi h)
  | _ => false

/-- The mode that a payload names. -/
def describedMode (payload : Payload) : Int :=
  match tokenize payload ' ' with
  | [_, _, mode] | [_, _, _, _, _, mode] => atoi mode
  | _ => 0

/-- The payload describes a point of a part in a mode: `EMPTY` the whole part. -/
def describes (payload : Payload) (part mode : Int) (p : Int × Int) : Bool :=
  mode == describedMode payload &&
    match tokenize payload ' ' with
    | [_, part'] | [_, part', _] => part == atoi part' && inRectangle 0 0 intMax intMax p
    | [x, y, w, h, part'] | [x, y, w, h, part', _] =>
        part == atoi part' && inRectangle (atoi x) (atoi y) (atoi w) (atoi h) p
    | _ => false

/-- The point is in the area of the queued invalidations. -/
def invalidates (callbacks : List Callback) (view part mode : Int) (p : Int × Int) : Bool :=
  callbacks.any fun it =>
    it.type == .invalidateTiles && it.view == view && describes it.payload part mode p

namespace Invalidation

def holds (r : Invalidation) (p : Int × Int) : Bool := inRectangle r.x r.y r.w r.h p

def inBounds (r : Invalidation) : Bool := isRectangle r.x r.y r.w r.h

def isWhole (r : Invalidation) : Bool :=
  r.x == 0 && r.y == 0 && r.w == intMax && r.h == intMax

variable {msg queued : Invalidation}

theorem covers_of_isWhole (hmsg : msg.isWhole = true) (hqueued : queued.inBounds = true) :
    msg.covers queued = true := by
  simp only [isWhole, inBounds, isRectangle, covers, Bool.and_eq_true, beq_iff_eq,
    decide_eq_true_eq] at *
  omega

theorem holds_of_covers (h : msg.covers queued = true) {p : Int × Int}
    (hp : queued.holds p = true) : msg.holds p = true := by
  simp only [covers, holds, inRectangle, Bool.and_eq_true, decide_eq_true_eq] at *
  omega

theorem holds_join_left {p : Int × Int} (hp : msg.holds p = true) :
    (msg.join queued).holds p = true := by
  simp only [holds, inRectangle, Bool.and_eq_true, decide_eq_true_eq] at *
  simp only [join]
  omega

theorem holds_join_right {p : Int × Int} (hp : queued.holds p = true) :
    (msg.join queued).holds p = true := by
  simp only [holds, inRectangle, Bool.and_eq_true, decide_eq_true_eq] at *
  simp only [join]
  omega

theorem inBounds_join (hmsg : msg.inBounds = true) (hqueued : queued.inBounds = true) :
    (msg.join queued).inBounds = true := by
  simp only [inBounds, isRectangle, Bool.and_eq_true, decide_eq_true_eq] at *
  simp only [join]
  omega

/-- A whole part is never joined. -/
theorem isWhole_of_isReasonable_join (h : (msg.join queued).isReasonable = true)
    (hmsg : msg.inBounds = true) : queued.isWhole = false := by
  by_contra hwhole
  simp only [isWhole, inBounds, isRectangle, isReasonable, Bool.not_eq_false, Bool.and_eq_true,
    beq_iff_eq, decide_eq_true_eq] at *
  simp only [join, reasonableSizeX, intMax] at *
  omega

/-- What is joined covers no whole part. -/
theorem isWhole_of_covers (h : msg.isReasonable = true) (hcovers : msg.covers queued = true) :
    queued.isWhole = false := by
  by_contra hwhole
  simp only [isWhole, isReasonable, covers, Bool.not_eq_false, Bool.and_eq_true, beq_iff_eq,
    decide_eq_true_eq] at *
  simp only [reasonableSizeX, intMax] at *
  omega

end Invalidation

/-! ## How a payload is read -/

/-- The payload is read as `r`, in bounds, and describes the points of `r` in the mode that it
names; the modes differ for a whole part only. -/
structure Reading (payload : Payload) (r : Invalidation) : Prop where
  extract : extractRectangle (tokenize payload ' ') = some r
  inBounds : r.inBounds = true
  describes : ∀ part mode p, describes payload part mode p = true ↔
    part = r.part ∧ mode = describedMode payload ∧ r.holds p = true
  mode : r.mode = describedMode payload ∨ r.isWhole = true

theorem reading_empty {payload part : Payload} {rest : List Payload}
    (htokens : tokenize payload ' ' = Word.empty :: part :: rest) (hrest : rest.length ≤ 1) :
    Reading payload ⟨0, 0, intMax, intMax, atoi part, 0⟩ := by
  have hextract : extractRectangle (tokenize payload ' ') =
      some ⟨0, 0, intMax, intMax, atoi part, 0⟩ := by
    simp [extractRectangle, htokens, equals]
  refine ⟨hextract, rfl, ?_, Or.inr rfl⟩
  intro part' mode p
  match rest, hrest with
  | [], _ => simp [describes, htokens, Invalidation.holds, and_left_comm]
  | [m], _ => simp [describes, htokens, Invalidation.holds, and_left_comm]

theorem describedMode_of_tokens {payload x y w h part : Payload} {rest : List Payload}
    (htokens : tokenize payload ' ' = x :: y :: w :: h :: part :: rest)
    (hrest : rest.length ≤ 1) : describedMode payload = (rest.head?.map atoi).getD 0 := by
  match rest, hrest with
  | [], _ => simp [describedMode, htokens]
  | [m], _ => simp [describedMode, htokens]

theorem reading_rectangle {payload x y w h part : Payload} {rest : List Payload}
    (htokens : tokenize payload ' ' = x :: y :: w :: h :: part :: rest)
    (hrest : rest.length ≤ 1) (hx : x ≠ Word.empty)
    (hbounds : isRectangle (atoi x) (atoi y) (atoi w) (atoi h) = true) :
    Reading payload ⟨atoi x, atoi y, atoi w, atoi h, atoi part, describedMode payload⟩ := by
  have hfirst : equals (x :: y :: w :: h :: part :: rest) 0 Word.empty = false := by
    simpa [equals] using hx
  have hmode : (if (x :: y :: w :: h :: part :: rest).length = 6 then
      atoi ((x :: y :: w :: h :: part :: rest).getD 5 []) else 0) = describedMode payload := by
    rw [describedMode_of_tokens htokens hrest]
    match rest, hrest with
    | [], _ => simp
    | [m], _ => simp
  refine ⟨?_, hbounds, ?_, Or.inl rfl⟩
  · rw [htokens, ← hmode]
    simp [extractRectangle, hfirst]
  · intro part' mode p
    match rest, hrest with
    | [], _ => simp [describes, htokens, Invalidation.holds, and_left_comm]
    | [m], _ => simp [describes, htokens, Invalidation.holds, and_left_comm]

/-- The tokens of an invalidation. -/
theorem isInvalidation_cases {payload : Payload} (h : isInvalidation payload = true) :
    (∃ part rest, tokenize payload ' ' = Word.empty :: part :: rest ∧ rest.length ≤ 1) ∨
      ∃ x y w h part rest, tokenize payload ' ' = x :: y :: w :: h :: part :: rest ∧
        rest.length ≤ 1 ∧ x ≠ Word.empty ∧
        isRectangle (atoi x) (atoi y) (atoi w) (atoi h) = true := by
  simp only [isInvalidation] at h
  split at h
  · rename_i first part htokens
    exact Or.inl ⟨part, [], by rw [htokens, beq_iff_eq.mp h], by simp⟩
  · rename_i first part mode htokens
    exact Or.inl ⟨part, [mode], by rw [htokens, beq_iff_eq.mp h], by simp⟩
  · rename_i x y w h' part htokens
    simp only [Bool.and_eq_true, bne_iff_ne] at h
    exact Or.inr ⟨x, y, w, h', part, [], htokens, by simp, h.1, h.2⟩
  · rename_i x y w h' part mode htokens
    simp only [Bool.and_eq_true, bne_iff_ne] at h
    exact Or.inr ⟨x, y, w, h', part, [mode], htokens, by simp, h.1, h.2⟩
  · cases h

theorem exists_reading {payload : Payload} (h : isInvalidation payload = true) :
    ∃ r, Reading payload r := by
  rcases isInvalidation_cases h with ⟨part, rest, htokens, hrest⟩ |
    ⟨x, y, w, h, part, rest, htokens, hrest, hx, hbounds⟩
  · exact ⟨_, reading_empty htokens hrest⟩
  · exact ⟨_, reading_rectangle htokens hrest hx hbounds⟩

/-! ## The merged payload -/

theorem isToken_decimal (n : Int) : IsToken (Text.decimal n ++ [',']) := by
  have hchars : ∀ c ∈ Text.decimal n ++ [','], c ≠ ' ' ∧ c ≠ '\n' := by
    intro c hc
    rcases List.mem_append.mp hc with hc | hc
    · rcases Text.mem_decimal hc with rfl | hdigit
      · decide
      · constructor
        · rintro rfl
          exact absurd hdigit (by decide)
        · rintro rfl
          exact absurd hdigit (by decide)
    · rw [List.mem_singleton.mp hc]
      decide
  exact ⟨⟨by simp, fun h => (hchars _ h).1 rfl⟩, fun h => (hchars _ h).2 rfl⟩

theorem head_decimal (n : Int) : ∃ c, (Text.decimal n ++ [',']).head? = some c ∧
    (c = '-' ∨ c.isDigit = true) := by
  cases h : Text.decimal n with
  | nil => exact absurd h (Text.decimal_ne_nil n)
  | cons c rest => exact ⟨c, rfl, Text.mem_decimal (n := n) (by simp [h])⟩

theorem tokenize_mergedPayload {payload x y w h part : Payload} {rest : List Payload}
    (htokens : tokenize payload ' ' = x :: y :: w :: h :: part :: rest) (msg : Invalidation) :
    tokenize (mergedPayload msg (tokenize payload ' ')) ' ' =
      (Text.decimal msg.x ++ [',']) :: (Text.decimal msg.y ++ [',']) ::
        (Text.decimal msg.w ++ [',']) :: (Text.decimal msg.h ++ [',']) :: part :: rest := by
  have hmerged : mergedPayload msg (tokenize payload ' ') = [' '].intercalate
      ((Text.decimal msg.x ++ [',']) :: (Text.decimal msg.y ++ [',']) ::
        (Text.decimal msg.w ++ [',']) :: (Text.decimal msg.h ++ [',']) :: part :: rest) := by
    simp [mergedPayload, cat, htokens, List.intercalate_cons_cons]
  rw [hmerged]
  apply tokenize_intercalate
  · intro token ht
    simp only [List.mem_cons] at ht
    rcases ht with rfl | rfl | rfl | rfl | ht
    · exact isToken_decimal _
    · exact isToken_decimal _
    · exact isToken_decimal _
    · exact isToken_decimal _
    · have hmem : token ∈ tokenize payload ' ' := by simp [htokens, ht]
      exact isToken_of_mem_tokenize hmem
  · obtain ⟨c, hc, hkind⟩ := head_decimal msg.x
    rw [List.intercalate_cons_cons, List.append_assoc,
      List.head?_append_of_ne_nil _ (by simp), hc]
    rintro ⟨⟩
    rcases hkind with h | h
    · exact absurd h (by decide)
    · exact absurd h (by decide)

theorem atoi_decimal_comma {n : Int} (hlo : 0 ≤ n) (hhi : n ≤ intMax) :
    atoi (Text.decimal n ++ [',']) = n := by
  apply atoi_decimal_append
  · simp only [IsInt32, intMax] at *
    omega
  · simp [Text.NoDigit]

/-- The merged payload is read as the rectangle it was made of, in the mode of the message. -/
theorem reading_mergedPayload {payload : Payload} {r msg : Invalidation}
    (hpayload : isInvalidation payload = true) (hr : Reading payload r) (hpart : msg.part = r.part)
    (hmode : msg.mode = r.mode) (hnot : r.isWhole = false) (hbounds : msg.inBounds = true) :
    isInvalidation (mergedPayload msg (tokenize payload ' ')) = true ∧
      Reading (mergedPayload msg (tokenize payload ' ')) msg ∧
      describedMode (mergedPayload msg (tokenize payload ' ')) = describedMode payload := by
  rcases isInvalidation_cases hpayload with ⟨part, rest, htokens, hrest⟩ |
    ⟨x, y, w, h, part, rest, htokens, hrest, hx, hrectangle⟩
  · have hextract := (reading_empty htokens hrest).extract
    rw [hr.extract] at hextract
    rw [Option.some.inj hextract] at hnot
    cases hnot
  · have hmerged := tokenize_mergedPayload htokens msg
    have hmode' : describedMode (mergedPayload msg (tokenize payload ' ')) =
        describedMode payload := by
      rw [describedMode_of_tokens hmerged hrest, describedMode_of_tokens htokens hrest]
    have hparts : r.part = atoi part ∧ r.mode = describedMode payload := by
      have hextract := (reading_rectangle htokens hrest hx hrectangle).extract
      rw [hr.extract] at hextract
      rw [Option.some.inj hextract]
      exact ⟨rfl, rfl⟩
    have hne : Text.decimal msg.x ++ [','] ≠ Word.empty := by
      obtain ⟨c, hc, hkind⟩ := head_decimal msg.x
      intro heq
      rw [heq] at hc
      cases hc
      rcases hkind with h | h
      · exact absurd h (by decide)
      · exact absurd h (by decide)
    have hb := hbounds
    simp only [Invalidation.inBounds, isRectangle, Bool.and_eq_true, decide_eq_true_eq] at hb
    have hatx := atoi_decimal_comma (n := msg.x) (by omega) (by omega)
    have haty := atoi_decimal_comma (n := msg.y) (by omega) (by omega)
    have hatw := atoi_decimal_comma (n := msg.w) (by omega) (by omega)
    have hath := atoi_decimal_comma (n := msg.h) (by omega) (by omega)
    have hrect : isRectangle (atoi (Text.decimal msg.x ++ [',']))
        (atoi (Text.decimal msg.y ++ [','])) (atoi (Text.decimal msg.w ++ [',']))
        (atoi (Text.decimal msg.h ++ [','])) = true := by
      rw [hatx, haty, hatw, hath]
      exact hbounds
    have hreading := reading_rectangle hmerged hrest hne hrect
    rw [hatx, haty, hatw, hath, hmode'] at hreading
    have hmsg : msg = ⟨msg.x, msg.y, msg.w, msg.h, atoi part, describedMode payload⟩ := by
      rw [← hparts.1, ← hparts.2, ← hpart, ← hmode]
    refine ⟨?_, hmsg ▸ hreading, hmode'⟩
    match rest, hrest with
    | [], _ => simp [isInvalidation, hmerged, hne, hrect]
    | [m], _ => simp [isInvalidation, hmerged, hne, hrect]

/-! ## The walk over the queue -/

theorem queuedInvalidation_eq_some {view : Int} {msg queued : Invalidation} {it : Callback}
    (h : queuedInvalidation view msg it = some queued) :
    it.type = .invalidateTiles ∧ it.view = view ∧
      extractRectangle (tokenize it.payload ' ') = some queued ∧ msg.part = queued.part ∧
      msg.mode = queued.mode := by
  simp only [queuedInvalidation] at h
  split at h
  · cases h
  · rename_i hit
    obtain ⟨htype, hview⟩ := not_or.mp hit
    obtain ⟨hextract, hsame⟩ := Option.filter_eq_some_iff.mp h
    simp only [Bool.and_eq_true, beq_iff_eq] at hsame
    exact ⟨not_not.mp htype, not_not.mp hview, hextract, hsame.1, hsame.2⟩

/-- Queued invalidations have the forms of invalidations. -/
def FormedQueue (callbacks : List Callback) : Prop :=
  ∀ it ∈ callbacks, it.type = .invalidateTiles → isInvalidation it.payload = true

/-- What the message covers in the queue is described in the mode that it has itself. -/
def CoversItsMode (view mode : Int) (msg : Invalidation) (callbacks : List Callback) : Prop :=
  ∀ it ∈ callbacks, ∀ queued, queuedInvalidation view msg it = some queued →
    msg.covers queued = true → describedMode it.payload = mode

/-- What the walk leaves of the queue and makes of the message. -/
structure Merged (view mode : Int) (msg : Invalidation) (callbacks left : List Callback)
    (msg' : Invalidation) : Prop where
  sublist : List.Sublist left callbacks
  inBounds : msg'.inBounds = true
  samePart : msg'.part = msg.part
  sameMode : msg'.mode = msg.mode
  grows : ∀ p, msg.holds p = true → msg'.holds p = true
  /-- What is removed is in the rectangle of the message. -/
  removed : ∀ it ∈ callbacks, it ∈ left ∨ (it.type = .invalidateTiles ∧ it.view = view ∧
    ∀ part m p, describes it.payload part m p = true →
      part = msg.part ∧ m = mode ∧ msg'.holds p = true)

namespace Merged

variable {view mode : Int} {msg msg' : Invalidation} {callbacks left : List Callback}

theorem keep (h : Merged view mode msg callbacks left msg') (it : Callback) :
    Merged view mode msg (it :: callbacks) (it :: left) msg' := by
  refine ⟨h.sublist.cons_cons it, h.inBounds, h.samePart, h.sameMode, h.grows, ?_⟩
  intro e he
  rcases List.mem_cons.mp he with rfl | he
  · exact Or.inl (by simp)
  · rcases h.removed e he with hl | hr
    · exact Or.inl (List.mem_cons_of_mem _ hl)
    · exact Or.inr hr

/-- An invalidation in the rectangle that the message has become may be removed. -/
theorem remove {next queued : Invalidation} {it : Callback}
    (h : Merged view mode next callbacks left msg') (hpart : next.part = msg.part)
    (hmode : next.mode = msg.mode) (hgrows : ∀ p, msg.holds p = true → next.holds p = true)
    (htype : it.type = .invalidateTiles) (hview : it.view = view)
    (hreading : Reading it.payload queued) (hqueued : queued.part = msg.part)
    (hdescribed : describedMode it.payload = mode)
    (hcovered : ∀ p, queued.holds p = true → next.holds p = true) :
    Merged view mode msg (it :: callbacks) left msg' := by
  refine ⟨h.sublist.trans (List.sublist_cons_self it callbacks), h.inBounds,
    h.samePart.trans hpart, h.sameMode.trans hmode, fun p hp => h.grows p (hgrows p hp), ?_⟩
  intro e he
  rcases List.mem_cons.mp he with rfl | he
  · refine Or.inr ⟨htype, hview, fun part m p hd => ?_⟩
    obtain ⟨hp, hm, hholds⟩ := (hreading.describes part m p).mp hd
    exact ⟨hp.trans hqueued, hm.trans hdescribed, h.grows p (hcovered p hholds)⟩
  · rcases h.removed e he with hl | ⟨ht, hv, hd⟩
    · exact Or.inl hl
    · refine Or.inr ⟨ht, hv, fun part m p hdesc => ?_⟩
      obtain ⟨hp, hm, hholds⟩ := hd part m p hdesc
      exact ⟨hp.trans hpart, hm, hholds⟩

end Merged

/-- The walk removes what the rectangle of the message contains, and it grows a rectangle only if
the message is not a whole part. -/
theorem mergeInvalidations_merged {view mode : Int} {msg msg' : Invalidation}
    {merged merged' : Bool} {callbacks left : List Callback} (hformed : FormedQueue callbacks)
    (hbounds : msg.inBounds = true) (hmode : msg.mode = mode ∨ msg.isWhole = true)
    (hcovers : CoversItsMode view mode msg callbacks)
    (h : mergeInvalidations view msg merged callbacks = (left, msg', merged')) :
    Merged view mode msg callbacks left msg' ∧
      (merged' = merged ∧ msg' = msg ∨ merged' = true ∧ msg.isWhole = false) := by
  induction callbacks generalizing msg merged left with
  | nil =>
      cases h
      exact ⟨⟨List.Sublist.refl _, hbounds, rfl, rfl, fun _ hp => hp, by simp⟩,
        Or.inl ⟨rfl, rfl⟩⟩
  | cons it rest ih =>
      have hformed' : FormedQueue rest := fun e he => hformed e (by simp [he])
      have hcovers' : CoversItsMode view mode msg rest := fun e he => hcovers e (by simp [he])
      obtain ⟨left', m', b', hrest⟩ : ∃ left' m' b',
          mergeInvalidations view msg merged rest = (left', m', b') := ⟨_, _, _, rfl⟩
      have hkeep (h : (it :: left', m', b') = (left, msg', merged')) :
          Merged view mode msg (it :: rest) left msg' ∧
            (merged' = merged ∧ msg' = msg ∨ merged' = true ∧ msg.isWhole = false) := by
        cases h
        obtain ⟨hm, hgrown⟩ := ih hformed' hbounds hmode hcovers' hrest
        exact ⟨hm.keep it, hgrown⟩
      simp only [mergeInvalidations] at h
      cases hqueued : queuedInvalidation view msg it with
      | none =>
          simp only [hqueued, hrest] at h
          exact hkeep h
      | some queued =>
          simp only [hqueued] at h
          obtain ⟨htype, hview, hextract, hpart, hqmode⟩ := queuedInvalidation_eq_some hqueued
          obtain ⟨r, hreading⟩ := exists_reading (hformed it (by simp) htype)
          have hr : r = queued := by
            have hextract' := hreading.extract
            rw [hextract] at hextract'
            exact (Option.some.inj hextract').symm
          subst hr
          split at h
          · rename_i hcovered
            obtain ⟨hm, hgrown⟩ := ih hformed' hbounds hmode hcovers' h
            have hdescribed := hcovers it (by simp) r hqueued hcovered
            exact ⟨hm.remove rfl rfl (fun _ hp => hp) htype hview hreading hpart.symm hdescribed
              fun p hp => Invalidation.holds_of_covers hcovered hp, hgrown⟩
          · rename_i hcovered
            split at h
            · split at h
              · rename_i hreasonable
                -- The message is no whole part, else it would cover the queued one, and neither is
                -- the queued one, so that both modes are read.
                have hnotwhole : msg.isWhole = false := by
                  by_contra hwhole
                  exact hcovered (Invalidation.covers_of_isWhole (by simpa using hwhole)
                    hreading.inBounds)
                have hmsgmode : msg.mode = mode := by
                  rcases hmode with hmode | hwhole
                  · exact hmode
                  · rw [hnotwhole] at hwhole
                    cases hwhole
                have hnotwhole' := Invalidation.isWhole_of_isReasonable_join hreasonable hbounds
                have hdescribed : describedMode it.payload = mode := by
                  rcases hreading.mode with hread | hwhole
                  · rw [← hread, ← hqmode, hmsgmode]
                  · rw [hnotwhole'] at hwhole
                    cases hwhole
                have hjoined := Invalidation.inBounds_join hbounds hreading.inBounds
                have hcoversJoin : CoversItsMode view mode (msg.join r) rest := by
                  intro e he q hq hcov
                  have hq' := queuedInvalidation_eq_some hq
                  obtain ⟨re, hre⟩ := exists_reading (hformed' e he hq'.1)
                  have heq : re = q := by
                    have hextract' := hre.extract
                    rw [hq'.2.2.1] at hextract'
                    exact (Option.some.inj hextract').symm
                  subst heq
                  rcases hre.mode with hread | hwhole
                  · rw [← hread, ← hq'.2.2.2.2]
                    exact hmsgmode
                  · rw [Invalidation.isWhole_of_covers hreasonable hcov] at hwhole
                    cases hwhole
                obtain ⟨hm, hgrown⟩ := ih hformed' hjoined (Or.inl hmsgmode) hcoversJoin h
                refine ⟨hm.remove rfl rfl (fun p hp => Invalidation.holds_join_left hp) htype
                  hview hreading hpart.symm hdescribed
                  fun p hp => Invalidation.holds_join_right hp, Or.inr ⟨?_, hnotwhole⟩⟩
                rcases hgrown with ⟨hb, -⟩ | ⟨hb, -⟩
                · exact hb
                · exact hb
              · exact hkeep (by simpa only [hrest] using h)
            · exact hkeep (by simpa only [hrest] using h)

/-! ## Putting an invalidation -/

/-- Each queued invalidation of the view that the payload covers, in the part and mode as they are
read, names the mode that the payload names. -/
def readsModes (callbacks : List Callback) (view : Int) (payload : Payload) : Bool :=
  match extractRectangle (tokenize payload ' ') with
  | none => true
  | some msg =>
      callbacks.all fun it =>
        match queuedInvalidation view msg it with
        | none => true
        | some queued => !msg.covers queued || describedMode it.payload == describedMode payload

theorem coversItsMode_of_readsModes {callbacks : List Callback} {view : Int} {payload : Payload}
    {msg : Invalidation} (h : readsModes callbacks view payload = true)
    (hmsg : extractRectangle (tokenize payload ' ') = some msg) :
    CoversItsMode view (describedMode payload) msg callbacks := by
  intro it hit queued hqueued hcovers
  simp only [readsModes, hmsg, List.all_eq_true] at h
  simpa [hqueued, hcovers] using h it hit

section Invalidates

variable {callbacks : List Callback} {view v part mode : Int} {p : Int × Int}

theorem invalidates_of_mem {it : Callback} (hit : it ∈ callbacks)
    (htype : it.type = .invalidateTiles) (hview : it.view = v)
    (hdescribes : describes it.payload part mode p = true) :
    invalidates callbacks v part mode p = true := by
  simp only [invalidates, List.any_eq_true, Bool.and_eq_true, beq_iff_eq]
  exact ⟨it, hit, ⟨htype, hview⟩, hdescribes⟩

theorem exists_of_invalidates (h : invalidates callbacks v part mode p = true) :
    ∃ it ∈ callbacks, it.type = .invalidateTiles ∧ it.view = v ∧
      describes it.payload part mode p = true := by
  simp only [invalidates, List.any_eq_true, Bool.and_eq_true, beq_iff_eq] at h
  obtain ⟨it, hit, ⟨htype, hview⟩, hdescribes⟩ := h
  exact ⟨it, hit, htype, hview, hdescribes⟩

/-- What the walk leaves of the queue, with a callback that describes the rectangle, describes what
the queue and the rectangle did. -/
theorem Merged.invalidates_append {msg msg' r : Invalidation} {left : List Callback}
    {payload payload' : Payload} (h : Merged view mode msg callbacks left msg')
    (hr : Reading payload r) (hr' : Reading payload' msg') (hsame : msg = r)
    (hmode : describedMode payload = mode) (hmode' : describedMode payload' = mode) {m : Int}
    (hp : invalidates callbacks v part m p = true ∨ v = view ∧ describes payload part m p = true) :
    invalidates (left ++ [⟨view, .invalidateTiles, payload'⟩]) v part m p = true := by
  have hnew (hv : v = view) (hpart : part = msg.part) (hm : m = mode)
      (hholds : msg'.holds p = true) :
      invalidates (left ++ [⟨view, .invalidateTiles, payload'⟩]) v part m p = true := by
    have hdescribes : describes payload' part m p = true := by
      rw [hr'.describes, h.samePart, hmode']
      exact ⟨hpart, hm, hholds⟩
    exact invalidates_of_mem (List.mem_append_right _ (List.mem_singleton_self _)) rfl hv.symm
      hdescribes
  rcases hp with hp | ⟨hv, hp⟩
  · obtain ⟨it, hit, htype, hview, hdescribes⟩ := exists_of_invalidates hp
    rcases h.removed it hit with hleft | ⟨-, hview', hremoved⟩
    · exact invalidates_of_mem (List.mem_append_left _ hleft) htype hview hdescribes
    · obtain ⟨hpart, hm, hholds⟩ := hremoved part m p hdescribes
      exact hnew (hview.symm.trans hview') hpart hm hholds
  · obtain ⟨hpart, hm, hholds⟩ := (hr.describes part m p).mp hp
    rw [← hsame] at hpart hholds
    exact hnew hv hpart (hm.trans hmode) (h.grows p hholds)

theorem FormedQueue.append {left : List Callback} {payload : Payload} {type : CallbackType}
    (h : FormedQueue left) (hnew : type = .invalidateTiles → isInvalidation payload = true) :
    FormedQueue (left ++ [⟨view, type, payload⟩]) := by
  intro it hit htype
  rcases List.mem_append.mp hit with hit | hit
  · exact h it hit htype
  · rw [List.mem_singleton.mp hit] at htype ⊢
    exact hnew htype

end Invalidates

/-- An invalidation is put without loss of area. -/
theorem putCallback_invalidates (extractViewId : Payload → Option Payload)
    {callbacks : List Callback} {view : Int} {payload : Payload}
    (hformed : FormedQueue callbacks) (hpayload : isInvalidation payload = true)
    (hreads : readsModes callbacks view payload = true) :
    ∃ queue, putCallback extractViewId callbacks view .invalidateTiles payload = some queue ∧
      FormedQueue queue ∧ ∀ v part mode p,
        (invalidates callbacks v part mode p = true ∨
          v = view ∧ describes payload part mode p = true) →
        invalidates queue v part mode p = true := by
  obtain ⟨msg, hreading⟩ := exists_reading hpayload
  by_cases hne : callbacks = []
  · refine ⟨[⟨view, .invalidateTiles, payload⟩],
      by simp [putCallback, elideDuplicateCallback, hne],
      FormedQueue.append (by simp [FormedQueue] : FormedQueue []) fun _ => hpayload, ?_⟩
    rintro v part mode p (hp | ⟨rfl, hp⟩)
    · simp [hne, invalidates] at hp
    · exact invalidates_of_mem (List.mem_singleton_self _) rfl rfl hp
  obtain ⟨left, msg', merged, hwalk⟩ : ∃ left msg' merged,
      mergeInvalidations view msg false callbacks = (left, msg', merged) := ⟨_, _, _, rfl⟩
  have hmode : msg.mode = describedMode payload ∨ msg.isWhole = true := hreading.mode
  obtain ⟨hmerged, hgrown⟩ := mergeInvalidations_merged hformed hreading.inBounds hmode
    (coversItsMode_of_readsModes hreads hreading.extract) hwalk
  have hleft : FormedQueue left := fun it hit => hformed it (hmerged.sublist.subset hit)
  simp only [putCallback, elideDuplicateCallback, hne, hreading.extract, hwalk, if_false]
  rcases hgrown with ⟨rfl, rfl⟩ | ⟨rfl, hnotwhole⟩
  · exact ⟨_, rfl, hleft.append fun _ => hpayload, fun v part mode p hp =>
      hmerged.invalidates_append hreading hreading rfl rfl rfl hp⟩
  · obtain ⟨hformed', hreading', hmode'⟩ := reading_mergedPayload hpayload hreading
      hmerged.samePart hmerged.sameMode hnotwhole hmerged.inBounds
    exact ⟨_, rfl, hleft.append fun _ => hformed', fun v part mode p hp =>
      hmerged.invalidates_append hreading hreading' rfl rfl hmode' hp⟩

/-! ## Runs -/

theorem removeViewCallback_sublist {extractViewId : Payload → Option Payload} {view : Int}
    {type : CallbackType} {viewId : Payload} {callbacks left : List Callback}
    (h : removeViewCallback extractViewId view type viewId callbacks = some left) :
    List.Sublist left callbacks := by
  induction callbacks generalizing left with
  | nil =>
      cases h
      exact List.Sublist.refl _
  | cons it rest ih =>
      have hkeep {left : List Callback}
          (h : (removeViewCallback extractViewId view type viewId rest).map (it :: ·) =
            some left) : List.Sublist left (it :: rest) := by
        obtain ⟨left', hleft, rfl⟩ := Option.map_eq_some_iff.mp h
        exact (ih hleft).cons_cons it
      simp only [removeViewCallback] at h
      split at h
      · exact hkeep h
      · obtain ⟨queuedViewId, -, h⟩ := Option.bind_eq_some_iff.mp h
        split at h
        · cases h
          exact List.sublist_cons_self it rest
        · exact hkeep h

/-- The other callbacks only remove callbacks. -/
theorem elide_sublist {extractViewId : Payload → Option Payload} {callbacks left : List Callback}
    {view : Int} {type : CallbackType} {payload : Payload} {elided : Bool}
    (htype : type ≠ .invalidateTiles)
    (h : elideDuplicateCallback extractViewId callbacks view type payload = some (left, elided)) :
    List.Sublist left callbacks ∧ elided = false := by
  by_cases hne : callbacks = []
  · simp only [elideDuplicateCallback, hne] at h
    cases h
    exact ⟨List.Sublist.refl _ |>.trans (by simp), rfl⟩
  by_cases hcursor : type.isCursor = true
  · rw [elide_cursor hne hcursor] at h
    cases h
    exact ⟨List.eraseP_sublist, rfl⟩
  by_cases hview : type.isViewCallback = true
  · rw [elide_viewCallback hne hview] at h
    obtain ⟨viewId, -, h⟩ := Option.bind_eq_some_iff.mp h
    obtain ⟨left', hleft, hpair⟩ := Option.map_eq_some_iff.mp h
    cases hpair
    exact ⟨removeViewCallback_sublist hleft, rfl⟩
  cases type with
  | invalidateTiles => exact absurd rfl htype
  | stateChanged =>
      rw [elide_stateChanged hne] at h
      cases h
      exact ⟨List.Sublist.refl _, rfl⟩
  | other type =>
      simp only [elideDuplicateCallback, hne, if_false] at h
      cases h
      exact ⟨List.Sublist.refl _, rfl⟩
  | _ => simp_all [CallbackType.isCursor, CallbackType.isViewCallback]

namespace CallbackOp

/-- The invalidations put have their forms. -/
def formed : Log Callback → CallbackOp → Bool
  | _, .put _ .invalidateTiles payload => isInvalidation payload
  | _, _ => true

/-- The invalidations put have their forms, and the modes are read. -/
def keepsAreas (l : Log Callback) : CallbackOp → Bool
  | .put view .invalidateTiles payload =>
      isInvalidation payload && readsModes l.queue view payload
  | _ => true

theorem step_formedQueue {extractViewId : Payload → Option Payload} {l l' : Log Callback}
    {op : CallbackOp} (hC : keepsAreas l op = true) (h : step extractViewId l op = some l')
    (hformed : FormedQueue l.queue) : FormedQueue l'.queue := by
  cases op with
  | get =>
      simp only [step] at h
      cases hqueue : l.queue with
      | nil =>
          simp only [hqueue, getCallback] at h
          cases h
          exact hformed
      | cons front queue =>
          simp only [hqueue, getCallback] at h
          cases h
          intro it hit
          exact hformed it (by simp [hqueue, hit])
  | put view type payload =>
      cases h
      by_cases htype : type = .invalidateTiles
      · subst htype
        simp only [keepsAreas, Bool.and_eq_true] at hC
        obtain ⟨queue, hput, hqueue, -⟩ :=
          putCallback_invalidates extractViewId hformed hC.1 hC.2
        simpa [hput] using hqueue
      · cases hput : putCallback extractViewId l.queue view type payload with
        | none => simpa using hformed
        | some queue =>
            simp only [Option.getD_some]
            obtain ⟨⟨left, elided⟩, helide, rfl⟩ := Option.map_eq_some_iff.mp hput
            obtain ⟨hsub, helided⟩ := elide_sublist htype helide
            simp only [helided, Bool.false_eq_true, if_false]
            exact FormedQueue.append (fun it hit => hformed it (hsub.subset hit))
              fun hinv => absurd hinv htype

/-- While the modes are read, an invalidation that is put loses no area: what the queue described
and what the payload describes is described afterwards. -/
theorem invalidations_kept {extractViewId : Payload → Option Payload} {ops : List CallbackOp}
    {l l' : Log Callback} {view : Int} {payload : Payload}
    (hrun : run (stepIf (step extractViewId) keepsAreas) ⟨[], [], []⟩ ops = some l)
    (hput : stepIf (step extractViewId) keepsAreas l (.put view .invalidateTiles payload) =
      some l')
    {v part mode : Int} {p : Int × Int}
    (hp : invalidates l.queue v part mode p = true ∨
      v = view ∧ describes payload part mode p = true) :
    invalidates l'.queue v part mode p = true := by
  have hformed : FormedQueue l.queue := by
    refine run_invariant _ (I := fun l => FormedQueue l.queue) ?_ hrun (by simp [FormedQueue])
    intro l op l' hstep hl
    obtain ⟨hC, hstep⟩ := (stepIf_eq_some _).mp hstep
    exact step_formedQueue hC hstep hl
  obtain ⟨hC, hstep⟩ := (stepIf_eq_some _).mp hput
  cases hstep
  simp only [keepsAreas, Bool.and_eq_true] at hC
  obtain ⟨queue, hqueue, -, hkept⟩ := putCallback_invalidates extractViewId hformed hC.1 hC.2
  simpa [hqueue] using hkept v part mode p hp

/-- Two rectangles of a page are joined, beside the whole of a master page. -/
theorem invalidations_kept_joined : ∃ l l',
    run (stepIf (step leadingViewId) keepsAreas) ⟨[], [], []⟩
      [.put 0 .invalidateTiles "EMPTY, 1, 1".toList,
        .put 0 .invalidateTiles "284, 1418, 11105, 275, 0".toList] = some l ∧
    stepIf (step leadingViewId) keepsAreas l
      (.put 0 .invalidateTiles "4299, 1418, 7090, 275, 0".toList) = some l' ∧
    invalidates l'.queue 0 0 0 (284, 1418) = true := by
  obtain ⟨l, hrun, hsome, hp⟩ := run_reaches (stepIf (step leadingViewId) keepsAreas) ⟨[], [], []⟩
    [.put 0 .invalidateTiles "EMPTY, 1, 1".toList,
      .put 0 .invalidateTiles "284, 1418, 11105, 275, 0".toList]
    (P := fun l => (stepIf (step leadingViewId) keepsAreas l
        (.put 0 .invalidateTiles "4299, 1418, 7090, 275, 0".toList)).isSome = true ∧
      invalidates l.queue 0 0 0 (284, 1418) = true) (by decide +kernel)
  obtain ⟨l', hput⟩ := Option.isSome_iff_exists.mp hsome
  exact ⟨l, l', hrun, hput, invalidations_kept hrun hput (Or.inl hp)⟩

/-- An invalidation of the whole part in another mode removes a rectangle of the page. -/
theorem invalidations_lost_otherMode : ¬ ∀ (extractViewId : Payload → Option Payload)
    (ops : List CallbackOp) (l l' : Log Callback) (view : Int) (payload : Payload),
    run (stepIf (step extractViewId) formed) ⟨[], [], []⟩ ops = some l →
    stepIf (step extractViewId) formed l (.put view .invalidateTiles payload) = some l' →
    ∀ (v part mode : Int) (p : Int × Int), (invalidates l.queue v part mode p = true ∨
      v = view ∧ describes payload part mode p = true) →
      invalidates l'.queue v part mode p = true := by
  intro h
  obtain ⟨l, hrun, hp, hlost⟩ := run_reaches (stepIf (step leadingViewId) formed) ⟨[], [], []⟩
    [.put 0 .invalidateTiles "0, 0, 100, 100, 0".toList]
    (P := fun l => invalidates l.queue 0 0 0 (5, 5) = true ∧
      (stepIf (step leadingViewId) formed l (.put 0 .invalidateTiles "EMPTY, 0, 1".toList)).any
        (fun l' => invalidates l'.queue 0 0 0 (5, 5) = false) = true) (by decide +kernel)
  cases hput : stepIf (step leadingViewId) formed l
      (.put 0 .invalidateTiles "EMPTY, 0, 1".toList) with
  | none =>
      rw [hput] at hlost
      cases hlost
  | some l' =>
      have hkept := h _ _ _ _ _ _ hrun hput 0 0 0 (5, 5) (Or.inl hp)
      rw [hput] at hlost
      simp [hkept] at hlost

end CallbackOp

end CoolOnline.Kit
