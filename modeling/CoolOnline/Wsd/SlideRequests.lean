import CoolOnline.Library.History
import CoolOnline.Wsd.SlideCache

/-! # Requests for slides

`DocumentBroker::handleGetSlideRequest`, `handleSlideLayerResponse` and `invalidateTiles` of
`wsd/DocumentBroker.cpp`, over what the kit sends for each request that is forwarded to it: the
layers of the slide and then a completion message, one by one.
-/

namespace CoolOnline.Slides

/-- A request that the kit has, with what it has sent and will send for it. -/
structure Rendering where
  key : Key
  sent : List Message
  rest : List Message
deriving DecidableEq, Repr

structure Broker where
  /-- `EnableExperimental`. -/
  experimental : Bool
  slideLayerCache : SlideLayerCacheMap
  renderings : List Rendering
  /-- The renderings that have been completed, with all their messages. -/
  finished : List (Key × List Message)
  /-- What requests have been answered with from the cache. -/
  answers : List (Key × List Message)

inductive Event
  /-- A request, and what the kit will send if it is forwarded. -/
  | getSlide (cacheKey : Key) (messages : List Message)
  /-- The next message of a rendering. -/
  | response (i : Nat)
  | invalidateTiles
deriving DecidableEq, Repr

namespace Broker

def new (experimental : Bool) : Broker := ⟨experimental, .new 25, [], [], []⟩

section

variable (b : Broker)

def forwardToChild (cacheKey : Key) (messages : List Message) : Broker :=
  if messages = [] then b
  else { b with renderings := b.renderings ++ [⟨cacheKey, [], messages⟩] }

def handleGetSlideRequest (cacheKey : Key) (messages : List Message) : Broker :=
  match b.slideLayerCache.find cacheKey with
  | some cached => { b with answers := b.answers ++ [(cacheKey, cached)] }
  | none => b.forwardToChild cacheKey messages

/-- A message that is no JSON is dropped. -/
def handleSlideLayerResponse (m : Message) : Broker :=
  if b.experimental then
    match m.cacheKey with
    | none => b
    | some key => { b with slideLayerCache := b.slideLayerCache.insert key m }
  else b

def invalidateTiles : Broker := { b with slideLayerCache := b.slideLayerCache.eraseAll }

/-- The kit has sent `m` for rendering `i`. -/
def advance (i : Nat) (r : Rendering) (m : Message) (rest : List Message) : Broker :=
  if rest = [] then
    { b with
      renderings := b.renderings.eraseIdx i
      finished := b.finished ++ [(r.key, r.sent ++ [m])] }
  else { b with renderings := b.renderings.set i { r with sent := r.sent ++ [m], rest := rest } }

end

def step (b : Broker) : Event → Option Broker
  | .getSlide cacheKey messages => some (b.handleGetSlideRequest cacheKey messages)
  | .response i =>
      match b.renderings[i]? with
      | none => none
      | some r =>
          match r.rest with
          | [] => none
          | m :: rest => some ((b.advance i r m rest).handleSlideLayerResponse m)
  | .invalidateTiles => some b.invalidateTiles

/-- What is sent from the cache is all that the kit has sent for one request of the same key. -/
def AnswersComplete (b : Broker) : Prop := ∀ answer ∈ b.answers, answer ∈ b.finished

/-- No slide is asked for while it is being rendered; no invalidation and no eviction comes between
the messages of a rendering; and they bear the key of its request. -/
def undisturbed (b : Broker) (e : Event) : Bool :=
  !b.experimental ||
    match e with
    | .getSlide cacheKey _ => b.renderings.all (·.key ≠ cacheKey)
    | .response i =>
        b.renderings[i]?.all fun r =>
          r.rest.head?.all (·.cacheKey = some r.key) &&
            b.renderings.all fun r' =>
              r'.sent.isEmpty || b.slideLayerCache.evicts r.key ≠ some r'.key
    | .invalidateTiles => b.renderings.all (·.sent.isEmpty)

/-! ## What the cache holds -/

/-- The cache holds what has come so far of each rendering, and all of those that are finished. -/
structure Tracked (b : Broker) : Prop where
  formed : b.slideLayerCache.WellFormed
  once : (b.renderings.map Rendering.key).Nodup
  soFar : ∀ r ∈ b.renderings,
    b.slideLayerCache.find r.key = if r.sent = [] then none else some r.sent
  kept : ∀ k cached, b.slideLayerCache.find k = some cached → (∀ r ∈ b.renderings, r.key ≠ k) →
    (k, cached) ∈ b.finished
  answered : b.AnswersComplete

section

variable {b b' : Broker}

theorem Tracked.getSlide (hb : Tracked b) {key : Key} (messages : List Message)
    (hidle : ∀ r ∈ b.renderings, r.key ≠ key) : Tracked (b.handleGetSlideRequest key messages) := by
  rw [handleGetSlideRequest]
  split
  · rename_i cached hcached
    refine ⟨hb.formed, hb.once, hb.soFar, hb.kept, ?_⟩
    intro answer hmem
    rcases List.mem_append.mp hmem with hold | hnew
    · exact hb.answered answer hold
    · cases List.mem_singleton.mp hnew
      exact hb.kept key cached hcached hidle
  · rename_i hnone
    rw [forwardToChild]
    split_ifs
    · exact hb
    · constructor
      · exact hb.formed
      · rw [List.map_append, List.map_singleton]
        apply hb.once.append (List.nodup_singleton key)
        rw [List.disjoint_singleton]
        intro hmem
        obtain ⟨r, hr, hkey⟩ := List.mem_map.mp hmem
        exact hidle r hr hkey
      · intro r hr
        rcases List.mem_append.mp hr with hold | hnew
        · exact hb.soFar r hold
        · cases List.mem_singleton.mp hnew
          exact hnone
      · intro k cached hfind hother
        exact hb.kept k cached hfind fun r hr => hother r (List.mem_append_left _ hr)
      · exact hb.answered

theorem Tracked.invalidateTiles (hb : Tracked b) (hnothing : ∀ r ∈ b.renderings, r.sent = []) :
    Tracked b.invalidateTiles := by
  constructor
  · exact SlideLayerCacheMap.wellFormed_new hb.formed.room
  · exact hb.once
  · intro r hr
    rw [if_pos (hnothing r hr)]
    exact OrderedMap.get_empty
  · intro k cached hfind
    cases hfind
  · exact hb.answered

/-- Another rendering than the one that is at `i`. -/
theorem key_ne_of_mem (hb : Tracked b) {i : Nat} {r r' : Rendering}
    (hi : b.renderings[i]? = some r) (hmem : r' ∈ b.renderings.eraseIdx i) :
    r' ∈ b.renderings ∧ r'.key ≠ r.key := by
  obtain ⟨j, hj, hget⟩ := List.mem_eraseIdx_iff_getElem?.mp hmem
  refine ⟨List.mem_of_getElem? hget, ?_⟩
  have hpair := List.pairwise_iff_getElem.mp (List.pairwise_map.mp hb.once)
  obtain ⟨hilt, hieq⟩ := List.getElem?_eq_some_iff.mp hi
  obtain ⟨hjlt, hjeq⟩ := List.getElem?_eq_some_iff.mp hget
  rcases Nat.lt_or_gt_of_ne hj with hlt | hgt
  · rw [← hieq, ← hjeq]
    exact hpair j i hjlt hilt hlt
  · rw [← hieq, ← hjeq]
    exact Ne.symm (hpair i j hilt hjlt hgt)

/-- One rendering of a list is replaced. -/
theorem mem_set {l : List Rendering} {i : Nat} {r r' : Rendering} (h : r' ∈ l.set i r) :
    r' = r ∨ r' ∈ l.eraseIdx i := by
  obtain ⟨j, hj⟩ := List.mem_iff_getElem?.mp h
  rw [List.getElem?_set] at hj
  split_ifs at hj with hij
  · exact .inl (Option.some.inj hj).symm
  · exact .inr (List.mem_eraseIdx_iff_getElem?.mpr ⟨j, Ne.symm hij, hj⟩)

theorem map_key_set {l : List Rendering} {i : Nat} {r r' : Rendering} (hi : l[i]? = some r)
    (hkey : r'.key = r.key) : (l.set i r').map Rendering.key = l.map Rendering.key := by
  rw [List.map_set, hkey]
  apply List.ext_getElem?
  intro j
  rw [List.getElem?_set]
  split_ifs with hij hlt
  · subst hij
    rw [List.getElem?_map, hi]
    rfl
  · subst hij
    exact (List.getElem?_eq_none (Nat.not_lt.mp hlt)).symm
  · rfl

/-- What the cache holds once the next message of a rendering is in it. -/
theorem Tracked.find_insert (hb : Tracked b) {i : Nat} {r : Rendering}
    (hi : b.renderings[i]? = some r) (m : Message) (k : Key) :
    (b.slideLayerCache.insert r.key m).find k =
      if r.key = k then some (r.sent ++ [m])
      else if b.slideLayerCache.evicts r.key = some k then none
      else b.slideLayerCache.find k := by
  rw [(hb.formed.insert r.key m).2, hb.soFar r (List.mem_of_getElem? hi)]
  by_cases hsent : r.sent = []
  · rw [if_pos hsent, hsent]
    rfl
  · rw [if_neg hsent]
    rfl

theorem Tracked.response (hb : Tracked b) (hexperimental : b.experimental = true) {i : Nat}
    {r : Rendering} {m : Message} {rest : List Message} (hi : b.renderings[i]? = some r)
    (hkey : m.cacheKey = some r.key)
    (hevicts : ∀ r' ∈ b.renderings, r'.sent ≠ [] →
      b.slideLayerCache.evicts r.key ≠ some r'.key) :
    Tracked ((b.advance i r m rest).handleSlideLayerResponse m) := by
  have hformed := (hb.formed.insert r.key m).1
  have hfind := hb.find_insert hi m
  -- Every other rendering keeps what has come of it.
  have hothers : ∀ r' ∈ b.renderings.eraseIdx i, (b.slideLayerCache.insert r.key m).find r'.key =
      if r'.sent = [] then none else some r'.sent := by
    intro r' hr'
    obtain ⟨hmem, hne⟩ := key_ne_of_mem hb hi hr'
    rw [hfind, if_neg (Ne.symm hne)]
    by_cases hsent : r'.sent = []
    · rw [hb.soFar r' hmem, if_pos hsent, ite_self]
    · rw [if_neg (hevicts r' hmem hsent), hb.soFar r' hmem]
  -- An entry of another key was there before.
  have hbefore : ∀ k cached, r.key ≠ k → (b.slideLayerCache.insert r.key m).find k = some cached →
      b.slideLayerCache.find k = some cached := by
    intro k cached hne hcached
    rw [hfind, if_neg hne] at hcached
    split_ifs at hcached
    exact hcached
  rw [advance]
  split_ifs with hrest
  · rw [handleSlideLayerResponse, if_pos hexperimental, hkey]
    constructor
    · exact hformed
    · exact hb.once.sublist ((List.eraseIdx_sublist _ _).map _)
    · exact hothers
    · intro k cached hcached hother
      apply List.mem_append.mpr
      by_cases hk : r.key = k
      · subst hk
        have hall := (hfind r.key).symm.trans hcached
        rw [if_pos rfl] at hall
        cases hall
        exact .inr (List.mem_singleton.mpr rfl)
      · left
        apply hb.kept k cached (hbefore k cached hk hcached)
        intro r' hr'
        obtain ⟨j, hj⟩ := List.mem_iff_getElem?.mp hr'
        by_cases hij : j = i
        · subst hij
          cases hi.symm.trans hj
          exact hk
        · exact hother r' (List.mem_eraseIdx_iff_getElem?.mpr ⟨j, hij, hj⟩)
    · exact fun answer hmem => List.mem_append_left _ (hb.answered answer hmem)
  · rw [handleSlideLayerResponse, if_pos hexperimental, hkey]
    constructor
    · exact hformed
    · have hkeys : (b.renderings.set i ⟨r.key, r.sent ++ [m], rest⟩).map Rendering.key =
          b.renderings.map Rendering.key := map_key_set hi rfl
      exact hkeys ▸ hb.once
    · intro r' hr'
      rcases mem_set hr' with rfl | hold
      · change (b.slideLayerCache.insert r.key m).find r.key = _
        rw [hfind, if_pos rfl, if_neg (by simp)]
      · exact hothers r' hold
    · intro k cached hcached hother
      have hk : r.key ≠ k := by
        have hlt : i < b.renderings.length := (List.getElem?_eq_some_iff.mp hi).1
        exact hother ⟨r.key, r.sent ++ [m], rest⟩
          (List.mem_iff_getElem?.mpr ⟨i, List.getElem?_set_self hlt⟩)
      apply hb.kept k cached (hbefore k cached hk hcached)
      intro r' hr'
      obtain ⟨j, hj⟩ := List.mem_iff_getElem?.mp hr'
      by_cases hij : i = j
      · subst hij
        cases hi.symm.trans hj
        exact hk
      · apply hother r'
        exact List.mem_iff_getElem?.mpr ⟨j, (List.getElem?_set_ne hij).trans hj⟩
    · exact hb.answered

/-! ## Runs -/

/-- Without the experimental features nothing is cached. -/
structure Uncached (b : Broker) : Prop where
  off : b.experimental = false
  empty : ∀ k, b.slideLayerCache.find k = none
  answered : b.AnswersComplete

theorem Uncached.step_ok (hb : Uncached b) {e : Event} (hstep : b.step e = some b') :
    Uncached b' := by
  cases e with
  | getSlide key messages =>
      cases hstep
      rw [handleGetSlideRequest, hb.empty]
      dsimp only
      rw [forwardToChild]
      split_ifs
      · exact hb
      · exact ⟨hb.off, hb.empty, hb.answered⟩
  | response i =>
      rw [step] at hstep
      split at hstep
      · cases hstep
      split at hstep
      · cases hstep
      rename_i r _ m rest _
      cases hstep
      have hoff : ¬ b.experimental = true := by simp [hb.off]
      rw [advance]
      split_ifs
      · rw [handleSlideLayerResponse, if_neg hoff]
        exact ⟨hb.off, hb.empty, fun answer hmem =>
          List.mem_append_left _ (hb.answered answer hmem)⟩
      · rw [handleSlideLayerResponse, if_neg hoff]
        exact ⟨hb.off, hb.empty, hb.answered⟩
  | invalidateTiles =>
      cases hstep
      exact ⟨hb.off, fun _ => OrderedMap.get_empty, hb.answered⟩

theorem Tracked.step_ok (hb : Tracked b) (hexperimental : b.experimental = true) {e : Event}
    (hstep : b.step e = some b') (hturn : b.undisturbed e = true) :
    Tracked b' ∧ b'.experimental = true := by
  simp only [undisturbed, hexperimental, Bool.not_true, Bool.false_or] at hturn
  cases e with
  | getSlide key messages =>
      cases hstep
      constructor
      · apply hb.getSlide
        simpa using hturn
      · rw [handleGetSlideRequest, forwardToChild]
        split
        · exact hexperimental
        · split_ifs
          · exact hexperimental
          · exact hexperimental
  | response i =>
      rw [step] at hstep
      split at hstep
      · cases hstep
      rename_i r hi
      split at hstep
      · cases hstep
      rename_i m rest hrest
      cases hstep
      simp only [hi, hrest, Option.all_some, List.head?_cons, Bool.and_eq_true, decide_eq_true_eq,
        List.all_eq_true, Bool.or_eq_true, List.isEmpty_iff] at hturn
      obtain ⟨hkey, hothers⟩ := hturn
      refine ⟨hb.response hexperimental hi hkey fun r' hr' hsent =>
        (hothers r' hr').resolve_left hsent, ?_⟩
      rw [handleSlideLayerResponse, hkey, advance]
      split_ifs <;> exact hexperimental
  | invalidateTiles =>
      cases hstep
      refine ⟨hb.invalidateTiles ?_, hexperimental⟩
      simpa using hturn

theorem tracked_new : Tracked (new true) := by
  constructor
  · exact SlideLayerCacheMap.wellFormed_new (by decide)
  · exact List.nodup_nil
  · nofun
  · intro k cached hcached
    cases hcached
  · nofun

end

/-- What is sent from the cache is complete where no rendering is disturbed. -/
theorem answersComplete_of_undisturbed (experimental : Bool) (es : List Event) (b : Broker)
    (hrun : run (stepIf step undisturbed) (new experimental) es = some b) : b.AnswersComplete := by
  cases experimental with
  | false =>
      have huncached : Uncached b := by
        apply run_invariant _ _ hrun ⟨rfl, fun _ => OrderedMap.get_empty, nofun⟩
        intro b e b' hstep hb
        exact hb.step_ok ((stepIf_eq_some _).mp hstep).2
      exact huncached.answered
  | true =>
      have htracked : Tracked b ∧ b.experimental = true := by
        apply run_invariant _ _ hrun ⟨tracked_new, rfl⟩
        intro b e b' hstep hb
        obtain ⟨hturn, hstep⟩ := (stepIf_eq_some _).mp hstep
        exact hb.1.step_ok hb.2 hstep hturn
      exact htracked.1.answered

/-- A slide of two layers is asked for again once it is rendered. -/
theorem answersComplete_of_undisturbed_twice :
    ∃ b : Broker,
      run (stepIf step undisturbed) (new true)
        [.getSlide "part=0" [⟨some "part=0", "a"⟩, ⟨some "part=0", "b"⟩, ⟨some "part=0", "done"⟩],
          .response 0, .response 0, .response 0, .getSlide "part=0" []] = some b ∧
      b.answers = [("part=0",
        [⟨some "part=0", "a"⟩, ⟨some "part=0", "b"⟩, ⟨some "part=0", "done"⟩])] ∧
      b.AnswersComplete := by
  obtain ⟨b, hrun, hanswers⟩ := run_reaches (stepIf step undisturbed) (new true)
    [.getSlide "part=0" [⟨some "part=0", "a"⟩, ⟨some "part=0", "b"⟩, ⟨some "part=0", "done"⟩],
      .response 0, .response 0, .response 0, .getSlide "part=0" []]
    (P := fun b => b.answers = [("part=0",
      [⟨some "part=0", "a"⟩, ⟨some "part=0", "b"⟩, ⟨some "part=0", "done"⟩])])
    (by decide +kernel)
  exact ⟨b, hrun, hanswers, answersComplete_of_undisturbed true _ b hrun⟩

/-- A slide is asked for again when one of its layers has come. -/
theorem request_during_rendering_is_answered :
    ¬ ∀ (experimental : Bool) (es : List Event) (b : Broker),
      run step (new experimental) es = some b → b.AnswersComplete := by
  intro hall
  obtain ⟨b, hrun, hanswers⟩ := run_reaches step (new true)
    [.getSlide "part=0" [⟨some "part=0", "a"⟩, ⟨some "part=0", "b"⟩, ⟨some "part=0", "done"⟩],
      .response 0, .getSlide "part=0" []]
    (P := fun b => b.answers = [("part=0", [⟨some "part=0", "a"⟩])] ∧ b.finished = [])
    (by decide +kernel)
  have hmem := hall true _ b hrun ("part=0", [⟨some "part=0", "a"⟩]) (by simp [hanswers.1])
  rw [hanswers.2] at hmem
  cases hmem

end Broker

end CoolOnline.Slides
