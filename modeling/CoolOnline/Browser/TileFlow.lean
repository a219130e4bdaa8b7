import CoolOnline.Browser.RawDeltas
import CoolOnline.Browser.TileManager
import CoolOnline.Library.History
import Mathlib.Logic.Function.Basic

/-! # The flow of raw deltas

What the tile manager does to the raw deltas of its tiles, as an abstract machine: data arrives and
is stored, dropped or trimmed, slices are handed over and posted to the workers, and replies come
back. Bitmaps, distances and the choice of what is reclaimed play no part in it.
-/

namespace CoolOnline.Browser

structure FlowTile where
  rawDeltas : List RawDelta
  deltaId : Nat
  lastPendingId : Nat

/-- The tiles by their coordinates; `cached` are those whose key is in `tileImageCache`. -/
structure Flow (ι : Type) where
  tiles : TileCoordData → Option FlowTile
  cached : TileCoordData → Bool
  pendingDeltas : List PendingDelta
  workers : List (TileWorker ι)
  history : List TileEntry

namespace Flow

variable {ι : Type} (K : Codec ι)

def setTile (s : Flow ι) (c : TileCoordData) (t : Option FlowTile) : Flow ι :=
  { s with tiles := Function.update s.tiles c t }

/-- One change. Deltas are posted in states that meet a condition `C`. -/
inductive Step (C : Flow ι → Prop) : Flow ι → Flow ι → Prop
  | cache (s : Flow ι) (cached : TileCoordData → Bool)
      (h : ∀ c, s.cached c = true → cached c = true) : Step C s { s with cached := cached }
  | create (s : Flow ι) (c : TileCoordData) (h : s.tiles c = none) :
      Step C s (s.setTile c (some ⟨[], 0, 0⟩))
  | remove (s : Flow ι) (c : TileCoordData) : Step C s (s.setTile c none)
  | reclaim (s : Flow ι) (c : TileCoordData) (t : FlowTile) (h : s.tiles c = some t) :
      Step C s (s.setTile c (some { t with lastPendingId := 0 }))
  | clear (s : Flow ι) (c : TileCoordData) (t : FlowTile) (h : s.tiles c = some t) :
      Step C s (s.setTile c (some { t with rawDeltas := [] }))
  | trim (s : Flow ι) (c : TileCoordData) (t : FlowTile) (h : s.tiles c = some t) :
      Step C s (s.setTile c (some { t with rawDeltas := current t.rawDeltas }))
  | receive (s : Flow ι) (c : TileCoordData) (t : FlowTile) (h : s.tiles c = some t)
      (img : TileImage) (himg : img.isKeyframe = true ∨ t.rawDeltas ≠ []) :
      Step C s
        { s.setTile c (some { t with
            deltaId := t.deltaId + 1
            rawDeltas := t.rawDeltas ++ [⟨img.rawData, t.deltaId + 1, img.isKeyframe⟩] }) with
          history := .received c img :: s.history }
  | refuse (s : Flow ι) (c : TileCoordData) (t : FlowTile) (h : s.tiles c = some t)
      (img : TileImage) (himg : img.isKeyframe = false) (hnone : t.rawDeltas = []) :
      Step C s { s with history := .received c img :: s.history }
  | hand (s : Flow ι) (c : TileCoordData) (t : FlowTile) (h : s.tiles c = some t)
      (last : RawDelta) (hlast : t.rawDeltas.getLast? = some last) (hneeds : t.lastPendingId ≠ last.id)
      (wireMessage : Bool) (x : PendingDelta)
      (hx : slice c t.rawDeltas t.lastPendingId wireMessage = some x) :
      Step C s
        { s.setTile c (some { t with lastPendingId := x.ids.2 }) with
          pendingDeltas := s.pendingDeltas ++ [x]
          history := .handed t.rawDeltas t.lastPendingId x :: s.history }
  | post (s : Flow ι) (keys : List Key) (hkeys : ∀ c, s.cached c = true ↔ c.key ∈ keys) (hC : C s) :
      Step C s
        { s with
          workers := postDeltas s.workers s.pendingDeltas keys
          pendingDeltas := [] }
  | flush (s : Flow ι) (h : s.workers = []) : Step C s { s with pendingDeltas := [] }
  | disable (s : Flow ι) : Step C s { s with workers := [], pendingDeltas := [] }
  | handle (s : Flow ι) (i : Nat) (w : TileWorker ι) (hw : s.workers[i]? = some w)
      (message : WorkerMessage) (inbox : List WorkerMessage) (hinbox : w.inbox = message :: inbox) :
      Step C s
        { s with workers := s.workers.set i ({ w with inbox := inbox }.onMessage K message) }
  | reply (s : Flow ι) (i : Nat) (w : TileWorker ι) (hw : s.workers[i]? = some w)
      (j : Nat) (deltas : List (PendingDelta × ι)) (hdeltas : w.replies[j]? = some deltas)
      (cached : TileCoordData → Bool) (h : ∀ c, s.cached c = true → cached c = true)
      (hnew : ∀ x ∈ deltas, x.1.isKeyframe = true → (s.tiles x.1.coords).isSome →
        cached x.1.coords = true) :
      Step C s
        { s with
          cached := cached
          workers := s.workers.set i { w with replies := w.replies.eraseIdx j } }

end Flow

/-! ## Contiguous slices -/

/-- What was received of a tile: its newest keyframe and the later deltas. -/
def received (c : TileCoordData) : List TileEntry → List (List UInt8)
  | [] => []
  | .received c' img :: older =>
      if c' = c then
        if img.isKeyframe then [img.rawData] else received c older ++ [img.rawData]
      else received c older
  | .handed .. :: older => received c older

/-- The image that the slices of a tile give when they are applied in order. -/
def applied {ι : Type} (codec : Codec ι) (c : TileCoordData) : List TileEntry → Option ι
  | [] => none
  | .received .. :: older => applied codec c older
  | .handed _ _ x :: older =>
      if x.coords = c then codec.decompress (applied codec c older) x else applied codec c older

/-- A slice ends with the newest raw delta, and starts at the last keyframe or right after what was
pending before. With it, the slices give the image of what was received. -/
def SliceContiguous {ι : Type} (codec : Codec ι) : TileEntry → List TileEntry → Prop
  | .received .., _ => True
  | .handed rawDeltas lastPendingId x, older =>
      x.rawDelta ≠ [] ∧ x.rawDelta <:+ rawDeltas ∧
        (x.isKeyframe = true ∧ StartsAtLastKeyframe x.rawDelta ∨
          x.isKeyframe = false ∧ x.rawDelta.head?.map RawDelta.id = some (lastPendingId + 1) ∧
            ∀ d ∈ x.rawDelta, d.isKeyframe = false) ∧
        received x.coords older ≠ [] ∧
        applied codec x.coords (.handed rawDeltas lastPendingId x :: older) =
          codec.image (received x.coords older)

/-- What holds of a tile at any time. -/
structure FlowTile.Ok {ι : Type} (codec : Codec ι) (c : TileCoordData) (history : List TileEntry)
    (t : FlowTile) : Prop where
  contiguous : Contiguous t.rawDeltas
  newest : ∀ last ∈ t.rawDeltas.getLast?, last.id = t.deltaId
  pending : t.lastPendingId ≤ t.deltaId
  stored : t.rawDeltas ≠ [] → (current t.rawDeltas).map RawDelta.delta = received c history
  shown : continued t.rawDeltas t.lastPendingId ≠ [] →
    applied codec c history = codec.imageOf (continued t.rawDeltas t.lastPendingId)

section Ok

variable {ι : Type} {codec : Codec ι} {c c' : TileCoordData} {history : List TileEntry} {t : FlowTile}

theorem Contiguous.nil : Contiguous [] := ⟨List.isChain_nil, by simp⟩

theorem FlowTile.Ok.new : FlowTile.Ok codec c history ⟨[], 0, 0⟩ :=
  ⟨.nil, by simp, Nat.le_refl 0, by simp, by simp⟩

namespace FlowTile.Ok

theorem reclaim (h : t.Ok codec c history) :
    FlowTile.Ok codec c history { t with lastPendingId := 0 } :=
  ⟨h.contiguous, h.newest, Nat.zero_le _, h.stored, by simp [continued_zero]⟩

theorem clear (h : t.Ok codec c history) : FlowTile.Ok codec c history { t with rawDeltas := [] } :=
  ⟨.nil, by simp, h.pending, by simp, by simp⟩

theorem trim (h : t.Ok codec c history) :
    FlowTile.Ok codec c history { t with rawDeltas := current t.rawDeltas } := by
  by_cases hl : t.rawDeltas = []
  · rw [hl, current_nil]
    exact h.clear
  · have hstart := startsAtLastKeyframe_current hl h.contiguous.keyframe
    have hcurrent := hstart.current_eq
    refine ⟨⟨h.contiguous.consecutive.suffix (current_suffix _), ?_⟩, ?_, h.pending, ?_, ?_⟩
    · obtain ⟨keyframe, deltas, heq, hkey, -⟩ := hstart
      simp [heq, hkey]
    · intro last hlast
      obtain ⟨before, hbefore⟩ := current_suffix t.rawDeltas
      apply h.newest
      rw [← hbefore, List.getLast?_append, hlast]
      rfl
    · intro _
      dsimp only
      rw [hcurrent]
      exact h.stored hl
    · dsimp only
      rw [continued_of_startsAtLastKeyframe hstart]
      exact h.shown

/-- What happens to another tile. -/
theorem of_other (h : t.Ok codec c history) {entry : TileEntry}
    (hother : match entry with
      | .received c' _ => c' ≠ c
      | .handed _ _ x => x.coords ≠ c) : t.Ok codec c (entry :: history) := by
  obtain ⟨hcontiguous, hnewest, hpending, hstored, hshown⟩ := h
  cases entry with
  | received c' img =>
      exact ⟨hcontiguous, hnewest, hpending, by simpa [received, hother] using hstored, hshown⟩
  | handed l p x =>
      exact ⟨hcontiguous, hnewest, hpending, hstored, by simpa [applied, hother] using hshown⟩

theorem refuse (h : t.Ok codec c history) (hnone : t.rawDeltas = []) (img : TileImage) :
    t.Ok codec c (.received c img :: history) :=
  ⟨h.contiguous, h.newest, h.pending, fun hne => absurd hnone hne, h.shown⟩

theorem receive (h : t.Ok codec c history) {img : TileImage}
    (himg : img.isKeyframe = true ∨ t.rawDeltas ≠ []) :
    FlowTile.Ok codec c (.received c img :: history) { t with
      deltaId := t.deltaId + 1
      rawDeltas := t.rawDeltas ++ [⟨img.rawData, t.deltaId + 1, img.isKeyframe⟩] } := by
  refine ⟨⟨?_, ?_⟩, ?_, Nat.le_succ_of_le h.pending, ?_, ?_⟩
  · apply List.isChain_append.mpr
    refine ⟨h.contiguous.consecutive, List.isChain_singleton _, ?_⟩
    intro last hlast first hfirst
    obtain rfl : _ = first := Option.some.inj hfirst
    exact congrArg (· + 1) (h.newest last hlast).symm
  · intro first hfirst
    by_cases hl : t.rawDeltas = []
    · simp only [hl, List.nil_append, List.head?_cons, Option.mem_def, Option.some.injEq] at hfirst
      subst hfirst
      simpa [hl] using himg
    · apply h.contiguous.keyframe
      rwa [List.head?_append_of_ne_nil _ hl] at hfirst
  · simp
  · intro _
    cases hkey : img.isKeyframe with
    | true =>
        dsimp only
        rw [current_append_keyframe rfl]
        simp [received, hkey]
    | false =>
        have hl : t.rawDeltas ≠ [] := by simpa [hkey] using himg
        dsimp only
        rw [current_append_delta hl rfl, List.map_append, h.stored hl]
        simp [received, hkey]
  · have hpending := h.pending
    cases hkey : img.isKeyframe with
    | true =>
        dsimp only
        rw [continued_append_keyframe rfl (Nat.lt_succ_of_le hpending)]
        exact fun hne => absurd rfl hne
    | false =>
        have hl : t.rawDeltas ≠ [] := by simpa [hkey] using himg
        dsimp only
        rw [continued_append_delta hl rfl (Nat.lt_succ_of_le hpending)]
        exact h.shown

/-- What is handed over is a slice, after which all from the last keyframe on is shown. -/
theorem hand (h : t.Ok codec c history) {last : RawDelta}
    (hlast : t.rawDeltas.getLast? = some last) (hneeds : t.lastPendingId ≠ last.id)
    {wireMessage : Bool} {x : PendingDelta}
    (hx : slice c t.rawDeltas t.lastPendingId wireMessage = some x) :
    x.coords = c ∧ SliceOf t.rawDeltas t.lastPendingId x ∧ x.ids.2 = last.id ∧
      applied codec c (.handed t.rawDeltas t.lastPendingId x :: history) =
        codec.imageOf (current t.rawDeltas) := by
  have hpending : t.lastPendingId < last.id := by
    have hle := h.pending
    rw [← h.newest last hlast] at hle
    omega
  obtain ⟨x', hx', hcoords, hslice⟩ := slice_spec c wireMessage h.contiguous
    hlast hpending
  obtain rfl : x = x' := Option.some.inj (hx.symm.trans hx')
  refine ⟨hcoords, hslice, ?_, ?_⟩
  · have hids := hslice.last
    rw [hlast] at hids
    exact (Option.some.inj hids).symm
  · rw [applied, if_pos hcoords, codec.decompress_eq hslice.isKeyframe_iff, ← hslice.current_eq]
    intro hdelta
    rw [hslice.base_eq]
    apply h.shown
    intro hnil
    rw [hslice.isKeyframe_iff.mpr (hslice.base_eq.trans hnil)] at hdelta
    cases hdelta

theorem handed (h : t.Ok codec c history) {last : RawDelta}
    (hlast : t.rawDeltas.getLast? = some last) (hneeds : t.lastPendingId ≠ last.id)
    {wireMessage : Bool} {x : PendingDelta}
    (hx : slice c t.rawDeltas t.lastPendingId wireMessage = some x) :
    FlowTile.Ok codec c (.handed t.rawDeltas t.lastPendingId x :: history)
      { t with lastPendingId := x.ids.2 } := by
  obtain ⟨-, -, hid, happlied⟩ := h.hand hlast hneeds hx
  refine ⟨h.contiguous, h.newest, ?_, h.stored, ?_⟩
  · rw [hid]
    exact (h.newest last hlast).le
  · dsimp only
    rw [hid]
    intro hne
    rw [continued_last h.contiguous.consecutive hlast hne]
    exact happlied

theorem sliceContiguous (h : t.Ok codec c history) {last : RawDelta}
    (hlast : t.rawDeltas.getLast? = some last) (hneeds : t.lastPendingId ≠ last.id)
    {wireMessage : Bool} {x : PendingDelta}
    (hx : slice c t.rawDeltas t.lastPendingId wireMessage = some x) :
    SliceContiguous codec (.handed t.rawDeltas t.lastPendingId x) history := by
  obtain ⟨hcoords, hslice, -, happlied⟩ := h.hand hlast hneeds hx
  have hl : t.rawDeltas ≠ [] := by
    intro hnil
    rw [hnil] at hlast
    cases hlast
  have hcurrent : current t.rawDeltas ≠ [] := fun hnil => hl (current_eq_nil.mp hnil)
  obtain ⟨keyframe, deltas, heq, hkey, hdeltas⟩ :=
    startsAtLastKeyframe_current hl h.contiguous.keyframe
  refine ⟨hslice.ne_nil, hslice.suffix, ?_, ?_, ?_⟩
  · cases hx : x.isKeyframe with
    | true =>
        have hall := hslice.current_eq
        rw [hslice.isKeyframe_iff.mp hx, List.nil_append] at hall
        exact .inl ⟨rfl, keyframe, deltas, hall ▸ heq, hkey, hdeltas⟩
    | false =>
        obtain ⟨first, hfirst, hid⟩ := hslice.next hx
        refine .inr ⟨rfl, by rw [hfirst, Option.map_some, hid], ?_⟩
        have hbase : x.base ≠ [] := by
          intro hnil
          rw [hslice.isKeyframe_iff.mpr hnil] at hx
          cases hx
        obtain ⟨first, rest, hcons⟩ := List.exists_cons_of_ne_nil hbase
        intro d hd
        apply hdeltas
        have hall := hslice.current_eq
        rw [heq, hcons, List.cons_append] at hall
        rw [(List.cons.inj hall).2]
        exact List.mem_append_right _ hd
  · rw [hcoords, ← h.stored hl]
    simpa using hcurrent
  · rw [hcoords, happlied, Codec.imageOf, h.stored hl]

end FlowTile.Ok

end Ok

namespace Flow

variable {ι : Type} {codec : Codec ι} {C : Flow ι → Prop}

/-- Every tile is as it should be, and so was every slice. -/
structure Ok (codec : Codec ι) (s : Flow ι) : Prop where
  tiles : ∀ c t, s.tiles c = some t → t.Ok codec c s.history
  slices : Along (SliceContiguous codec) s.history

theorem Ok.setTile {s : Flow ι} (h : s.Ok codec) (c : TileCoordData) {t : Option FlowTile}
    (ht : ∀ t' ∈ t, t'.Ok codec c s.history) : (s.setTile c t).Ok codec := by
  refine ⟨?_, h.slices⟩
  intro c' t' hget
  dsimp only [Flow.setTile] at hget
  rw [Function.update_apply] at hget
  split at hget
  case isTrue heq =>
    subst heq
    exact ht t' hget
  case isFalse => exact h.tiles c' t' hget

theorem Ok.setSome {s : Flow ι} (h : s.Ok codec) {c : TileCoordData} {t : FlowTile}
    (ht : t.Ok codec c s.history) : (s.setTile c (some t)).Ok codec := by
  apply h.setTile
  intro t' ht'
  rwa [← Option.some.inj ht']

/-- One tile changes while something is observed of it. -/
theorem Ok.observe {s : Flow ι} (h : s.Ok codec) {entry : TileEntry} {c : TileCoordData}
    {t : FlowTile} (ht : t.Ok codec c (entry :: s.history))
    (hother : ∀ c' ≠ c, ∀ t : FlowTile, t.Ok codec c' s.history → t.Ok codec c' (entry :: s.history))
    (hslice : SliceContiguous codec entry s.history) :
    Ok codec { s.setTile c (some t) with history := entry :: s.history } := by
  refine ⟨?_, hslice, h.slices⟩
  intro c' t' hget
  dsimp only [Flow.setTile] at hget
  rw [Function.update_apply] at hget
  split at hget
  case isTrue heq =>
    obtain rfl : t = t' := Option.some.inj hget
    exact heq ▸ ht
  case isFalse hne => exact hother c' hne t' (h.tiles c' t' hget)

theorem Ok.step {s s' : Flow ι} (h : s.Ok codec) (hstep : Step codec C s s') : s'.Ok codec := by
  cases hstep with
  | cache => exact ⟨h.tiles, h.slices⟩
  | create c hc => exact h.setSome .new
  | remove c => exact h.setTile c fun t' ht' => nomatch ht'
  | reclaim c t ht => exact h.setSome (h.tiles c t ht).reclaim
  | clear c t ht => exact h.setSome (h.tiles c t ht).clear
  | trim c t ht => exact h.setSome (h.tiles c t ht).trim
  | receive c t ht img himg =>
      exact h.observe ((h.tiles c t ht).receive himg) (fun c' hne t h => h.of_other hne.symm) trivial
  | refuse c t ht img himg hnone =>
      have hsame : s.setTile c (some t) = s := by
        rw [Flow.setTile, ← ht, Function.update_eq_self]
      have hok := h.observe ((h.tiles c t ht).refuse hnone img)
        (fun c' hne t h => h.of_other hne.symm) trivial
      rwa [hsame] at hok
  | hand c t ht last hlast hneeds wireMessage x hx =>
      have hok := h.tiles c t ht
      have hcoords := (hok.hand hlast hneeds hx).1
      have hother (c' : TileCoordData) (hne : c' ≠ c) : x.coords ≠ c' := by
        rw [hcoords]
        exact hne.symm
      have hall := h.observe (hok.handed hlast hneeds hx)
        (fun c' hne _ h => h.of_other (hother c' hne)) (hok.sliceContiguous hlast hneeds hx)
      exact ⟨hall.tiles, hall.slices⟩
  | post => exact ⟨h.tiles, h.slices⟩
  | flush => exact ⟨h.tiles, h.slices⟩
  | disable => exact ⟨h.tiles, h.slices⟩
  | handle => exact ⟨h.tiles, h.slices⟩
  | reply => exact ⟨h.tiles, h.slices⟩

theorem Ok.steps {s s' : Flow ι} (h : s.Ok codec)
    (hsteps : Relation.ReflTransGen (Step codec C) s s') : s'.Ok codec := by
  induction hsteps with
  | refl => exact h
  | tail _ hlast ih => exact ih.step hlast

end Flow

end CoolOnline.Browser
