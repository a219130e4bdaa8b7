import CoolOnline.Library.History
import CoolOnline.Wsd.TileCache

/-! # Subscriptions to tiles

Sessions subscribe to a tile that is being rendered, each with the version of its request, and the
replies of the Kit are delivered to the subscribers.
-/

namespace CoolOnline.Wsd

/-- What happens to a session: it subscribes to a version of a tile, or a version is delivered. -/
inductive TileObserved (σ : Type) where
  | subscribed (session : σ) (key : TileKey) (version : Int)
  | delivered (session : σ) (key : TileKey) (version : Int)
deriving DecidableEq

/-- The tile cache, and what happened, newest first. -/
structure TileSubscription (σ : Type) where
  tileCache : TileCache σ
  history : List (TileObserved σ)

inductive TileEvent (σ : Type) where
  | subscribeToTileRendering (tile : TileDesc) (session : σ) (now : Int)
  | requestTileRendering (tile : TileDesc) (forceKeyframe : Bool) (version : Int) (session : σ)
      (now : Int)
  | saveTileAndNotify (desc : TileDesc) (data : Payload)

namespace TileSubscription

variable {σ : Type}

def start (dontCache : Bool) : TileSubscription σ := ⟨TileCache.new dontCache, []⟩

/-- No request for the tile so far was for a later version. -/
def noLater (history : List (TileObserved σ)) (key : TileKey) (version : Int) : Bool :=
  history.all fun
    | .subscribed _ key' version' => key' != key || version' ≤ version
    | .delivered .. => true

/-- The session subscribed to the version, and no version from that one on was delivered since. -/
def Waiting (history : List (TileObserved σ)) (session : σ) (key : TileKey) (version : Int) : Prop :=
  Pending (fun o => o = .subscribed session key version)
    (fun o => ∃ later, version ≤ later ∧ o = .delivered session key later) history

/-- Every session that waits for a version is among the subscribers. -/
def KeepsWaiting (s : TileSubscription σ) : Prop :=
  ∀ session key version, Waiting s.history session key version →
    ∃ t, s.tileCache.tilesBeingRendered key = some t ∧ session ∈ t.subscribers

variable [DecidableEq σ]

/-- The versions of the requests for a tile never decrease. -/
def step (s : TileSubscription σ) : TileEvent σ → Option (TileSubscription σ)
  | .subscribeToTileRendering tile session now =>
      if noLater s.history (cacheKey tile) tile.ver then
        some
          { tileCache := (s.tileCache.subscribeToTileRendering tile session now).1
            history := .subscribed session (cacheKey tile) tile.ver :: s.history }
      else none
  | .requestTileRendering tile forceKeyframe version session now =>
      if noLater s.history (cacheKey tile) tile.ver ∧ tile.ver ≤ version then
        let requested := s.tileCache.requestTileRendering tile forceKeyframe version now [] session
        some
          { tileCache := requested.tileCache
            history := .subscribed session (cacheKey tile) requested.tile.ver :: s.history }
      else none
  | .saveTileAndNotify desc data =>
      let saved := s.tileCache.saveTileAndNotify desc data
      some
        { tileCache := saved.1
          history := (saved.2.map Prod.fst).map
            (fun session => .delivered session (cacheKey desc) desc.ver) ++ s.history }

/-! ## A version that is not kept -/

def requestedTile : TileDesc :=
  { TileDesc.parseDefaults with width := 256, height := 256, tileWidth := 3840, tileHeight := 3840 }

/-- A second session asks for the tile while it is being rendered for the first, and the first
rendering is done. -/
def racingRenderings : List (TileEvent Nat) :=
  [.requestTileRendering { requestedTile with ver := 1 } true 1 0 0,
    .requestTileRendering { requestedTile with ver := 2 } true 2 1 0,
    .saveTileAndNotify { requestedTile with ver := 1, wireId := 1 } ['Z', 'a']]

theorem not_keepsWaiting_racingRenderings :
    ∃ s : TileSubscription Nat, run step (start false) racingRenderings = some s ∧
      ¬ KeepsWaiting s := by
  obtain ⟨s, hrun, hhistory, hforgotten⟩ := run_reaches step (start false) racingRenderings
    (P := fun s : TileSubscription Nat =>
      s.history =
        [.delivered 0 (cacheKey requestedTile) 1, .delivered 1 (cacheKey requestedTile) 1,
          .subscribed 1 (cacheKey requestedTile) 2, .subscribed 0 (cacheKey requestedTile) 1] ∧
      s.tileCache.tilesBeingRendered (cacheKey requestedTile) = none) (by decide +kernel)
  refine ⟨s, hrun, fun hkeeps => ?_⟩
  have hwaiting : Waiting s.history 1 (cacheKey requestedTile) 2 := by
    rw [hhistory]
    simp [Waiting, Pending]
  obtain ⟨t, ht, -⟩ := hkeeps 1 _ 2 hwaiting
  rw [hforgotten] at ht
  cases ht

/-! ## Runs that keep the versions -/

/-- A session that joins a rendering asks for no later version than the one kept for it, and a
reply that ends a rendering can be saved. -/
def keepsVersion (s : TileSubscription σ) : TileEvent σ → Bool
  | .subscribeToTileRendering tile session _ =>
      (s.tileCache.findTileBeingRendered tile).all fun t =>
        session ∈ t.subscribers || tile.ver ≤ t.version
  | .requestTileRendering tile _ version session now =>
      (s.tileCache.findTileBeingRendered tile).all fun t =>
        session ∈ t.subscribers || s.tileCache.requestVersion tile version now ≤ t.version
  | .saveTileAndNotify desc data =>
      (s.tileCache.findTileBeingRendered desc).all fun t =>
        desc.ver < t.version || s.tileCache.dontCache || (s.tileCache.findTile desc).isSome ||
          TileData.isKeyframe data

/-- Each rendering is kept under the key of its tile, with the sessions that wait for it and no
earlier version than theirs. -/
structure Inv (s : TileSubscription σ) : Prop where
  keys : ∀ key t, s.tileCache.tilesBeingRendered key = some t → cacheKey t.tile = key
  waiting : ∀ session key version, Waiting s.history session key version →
    ∃ t, s.tileCache.tilesBeingRendered key = some t ∧ session ∈ t.subscribers ∧
      version ≤ t.version

omit [DecidableEq σ] in
theorem inv_start (dontCache : Bool) : Inv (start dontCache : TileSubscription σ) := by
  constructor
  · intro key t ht
    cases ht
  · intro session key version hwaiting
    cases hwaiting

omit [DecidableEq σ] in
theorem noLater_mono {history : List (TileObserved σ)} {key : TileKey} {version later : Int}
    (h : noLater history key version = true) (hle : version ≤ later) :
    noLater history key later = true := by
  simp only [noLater, List.all_eq_true] at h ⊢
  intro o ho
  have hbefore := h o ho
  cases o with
  | subscribed session key' version' =>
      simp only [Bool.or_eq_true, decide_eq_true_eq] at hbefore ⊢
      exact hbefore.imp_right fun h => Int.le_trans h hle
  | delivered session key' version' => rfl

omit [DecidableEq σ] in
theorem le_of_noLater {history : List (TileObserved σ)} {session : σ} {key : TileKey}
    {version later : Int} (h : noLater history key later = true)
    (hwaiting : Waiting history session key version) : version ≤ later := by
  obtain ⟨o, ho, rfl⟩ := hwaiting.exists_opens
  simpa [noLater] using List.all_eq_true.mp h _ ho

theorem inv_subscribe {s : TileSubscription σ} {tile : TileDesc} {session : σ} (now : Int)
    (h : Inv s) (hlater : noLater s.history (cacheKey tile) tile.ver = true)
    (hjoin : ∀ t, s.tileCache.findTileBeingRendered tile = some t →
      session ∈ t.subscribers ∨ tile.ver ≤ t.version) :
    Inv ⟨(s.tileCache.subscribeToTileRendering tile session now).1,
      .subscribed session (cacheKey tile) tile.ver :: s.history⟩ := by
  obtain ⟨t', hcache, hkey, hmem, hothers, hversion⟩ :=
    s.tileCache.subscribeToTileRendering_eq session now fun t ht => h.keys _ t ht
  rw [hcache]
  constructor
  case keys =>
    intro key t ht
    by_cases hsame : key = cacheKey tile
    · subst hsame
      obtain rfl : t' = t := by simpa using ht
      exact hkey
    · exact h.keys key t (by simpa [hsame] using ht)
  case waiting =>
    intro session' key version hwaiting
    by_cases hsame : key = cacheKey tile
    · subst hsame
      refine ⟨t', by simp, ?_⟩
      rcases hwaiting with hnew | ⟨-, hbefore⟩
      · -- the session that subscribes
        cases hnew
        refine ⟨hmem, ?_⟩
        rcases hversion with heq | ⟨t, ht, hnot, heq⟩
        · exact Int.le_of_eq heq.symm
        · rw [heq]
          exact (hjoin t ht).resolve_left hnot
      · obtain ⟨t, ht, hsubscribed, hle⟩ := h.waiting session' _ version hbefore
        refine ⟨hothers t ht hsubscribed, ?_⟩
        rcases hversion with heq | ⟨t₁, ht₁, -, heq⟩
        · rw [heq]
          exact le_of_noLater hlater hbefore
        · obtain rfl : t = t₁ := Option.some.inj (ht.symm.trans ht₁)
          omega
    · have hbefore : Waiting s.history session' key version := by
        rcases hwaiting with hnew | ⟨-, hbefore⟩
        · cases hnew
          exact absurd rfl hsame
        · exact hbefore
      simpa [hsame] using h.waiting session' key version hbefore

omit [DecidableEq σ] in
/-- A reply that ends a rendering is delivered to all that wait for a version up to its own. -/
theorem inv_saveTileAndNotify {s : TileSubscription σ} {desc : TileDesc} {data : Payload}
    (h : Inv s)
    (hsave : ∀ t, s.tileCache.findTileBeingRendered desc = some t → t.version ≤ desc.ver →
      (s.tileCache.saveDataToCache desc data).1.isSome = true) :
    Inv ⟨(s.tileCache.saveTileAndNotify desc data).1,
      ((s.tileCache.saveTileAndNotify desc data).2.map Prod.fst).map
        (fun session => .delivered session (cacheKey desc) desc.ver) ++ s.history⟩ := by
  have hbefore {session : σ} {key : TileKey} {version : Int} {sessions : List σ}
      (hwaiting : Waiting (sessions.map
        (fun session => .delivered session (cacheKey desc) desc.ver) ++ s.history) session key
          version) :
      Waiting s.history session key version ∧
        (session ∈ sessions → key = cacheKey desc → desc.ver < version) := by
    rcases hwaiting.of_append with ⟨o, ho, hopens⟩ | ⟨hcloses, hbefore⟩
    · obtain ⟨session', -, rfl⟩ := List.mem_map.mp ho
      cases hopens
    · refine ⟨hbefore, fun hmem hkey => Int.not_le.mp fun hle => ?_⟩
      subst hkey
      exact hcloses _ (List.mem_map_of_mem hmem) ⟨desc.ver, hle, rfl⟩
  rcases s.tileCache.saveTileAndNotify_eq desc data with
    ⟨-, -, hcache⟩ | ⟨t, hfind, hcache, hnotified⟩
  · constructor
    · simpa only [hcache] using h.keys
    · intro session key version hwaiting
      simpa only [hcache] using h.waiting session key version (hbefore hwaiting).1
  · by_cases hends : t.version ≤ desc.ver
    · have hkey : cacheKey t.tile = cacheKey desc := h.keys _ t hfind
      rw [if_pos hends, hkey] at hcache
      constructor
      · intro key t' ht'
        by_cases hsame : key = cacheKey desc
        · simp [hcache, hsame] at ht'
        · exact h.keys key t' (by simpa [hcache, hsame] using ht')
      · intro session key version hwaiting
        obtain ⟨hold, hlater⟩ := hbefore hwaiting
        obtain ⟨t', ht', hmem, hle⟩ := h.waiting session key version hold
        have hne : key ≠ cacheKey desc := by
          rintro rfl
          obtain rfl : t = t' := Option.some.inj (hfind.symm.trans ht')
          have hnew := hlater (by rwa [hnotified (hsave t hfind hends)]) rfl
          omega
        exact ⟨t', by simpa [hcache, hne] using ht', hmem, hle⟩
    · rw [if_neg hends] at hcache
      constructor
      · simpa only [hcache] using h.keys
      · intro session key version hwaiting
        simpa only [hcache] using h.waiting session key version (hbefore hwaiting).1

theorem inv_step {s s' : TileSubscription σ} {e : TileEvent σ}
    (hstep : stepIf step keepsVersion s e = some s') (h : Inv s) : Inv s' := by
  obtain ⟨hkeeps, hstep⟩ := (stepIf_eq_some step).mp hstep
  cases e with
  | subscribeToTileRendering tile session now =>
      simp only [step, Option.ite_none_right_eq_some, Option.some.injEq] at hstep
      obtain ⟨hlater, rfl⟩ := hstep
      apply inv_subscribe now h hlater
      intro t ht
      simpa [keepsVersion, ht] using hkeeps
  | requestTileRendering tile forceKeyframe version session now =>
      simp only [step, Option.ite_none_right_eq_some, Option.some.injEq] at hstep
      obtain ⟨⟨hlater, hversion⟩, rfl⟩ := hstep
      have hkey := s.tileCache.cacheKey_requestTileRendering tile forceKeyframe version session now
      have hver := s.tileCache.requestTileRendering_ver tile forceKeyframe version session now
      rw [TileCache.requestTileRendering_tileCache, ← hkey]
      apply inv_subscribe now h
      · rw [hkey, hver]
        apply noLater_mono hlater
        rw [TileCache.requestVersion]
        split <;> omega
      · intro t ht
        rw [TileCache.findTileBeingRendered, hkey] at ht
        rw [hver]
        simpa [keepsVersion, TileCache.findTileBeingRendered, ht] using hkeeps
  | saveTileAndNotify desc data =>
      obtain rfl := Option.some.inj hstep
      apply inv_saveTileAndNotify h
      intro t hfind hends
      have hnot : ¬ desc.ver < t.version := by omega
      apply TileCache.isSome_saveDataToCache _ (by rw [hfind]; rfl)
      simpa [keepsVersion, hfind, hnot, or_assoc] using hkeeps

/-- A session that waits for a version stays among the subscribers. -/
theorem keepsWaiting_of_keepsVersion {es : List (TileEvent σ)} {s : TileSubscription σ}
    {dontCache : Bool} (hrun : run (stepIf step keepsVersion) (start dontCache) es = some s) :
    KeepsWaiting s := by
  have hinv : Inv s := run_invariant (stepIf step keepsVersion) (fun _ _ _ => inv_step) hrun
    (inv_start dontCache)
  intro session key version hwaiting
  obtain ⟨t, ht, hmem, -⟩ := hinv.waiting session key version hwaiting
  exact ⟨t, ht, hmem⟩

/-- A session asks again before the first rendering is done. -/
def askedTwice : List (TileEvent Nat) :=
  [.requestTileRendering { requestedTile with ver := 1 } true 1 0 0,
    .requestTileRendering { requestedTile with ver := 2 } true 2 0 1,
    .saveTileAndNotify { requestedTile with ver := 1, wireId := 1 } ['Z', 'a']]

theorem keepsWaiting_askedTwice :
    ∃ s t, run (stepIf step keepsVersion) (start false) askedTwice = some s ∧
      s.tileCache.tilesBeingRendered (cacheKey requestedTile) = some t ∧ 0 ∈ t.subscribers := by
  obtain ⟨s, hrun, hhistory⟩ := run_reaches (stepIf step keepsVersion) (start false) askedTwice
    (P := fun s : TileSubscription Nat =>
      s.history =
        [.delivered 0 (cacheKey requestedTile) 1, .subscribed 0 (cacheKey requestedTile) 2,
          .subscribed 0 (cacheKey requestedTile) 1]) (by decide +kernel)
  have hwaiting : Waiting s.history 0 (cacheKey requestedTile) 2 := by
    rw [hhistory]
    simp [Waiting, Pending]
  obtain ⟨t, ht, hmem⟩ := keepsWaiting_of_keepsVersion hrun 0 _ 2 hwaiting
  exact ⟨s, t, hrun, ht, hmem⟩

end TileSubscription

end CoolOnline.Wsd
