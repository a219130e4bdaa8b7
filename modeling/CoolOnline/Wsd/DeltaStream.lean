import CoolOnline.Library.History
import CoolOnline.Wsd.TileData

/-! # The delta stream of a client

What a client holds of a tile, when it puts the messages of `sendTileNow` together, is what the
cache holds of it since its last keyframe.
-/

namespace CoolOnline.Wsd

open NumberedLog

/-! ## The client -/

def isTileMessage (message : Payload) : Bool := Word.tile.isPrefixOf message

/-- What follows the header line. -/
def messageBody (message : Payload) : Payload := (message.dropWhile (· != '\n')).tail

/-- The client starts again at a `tile:` message. -/
def receive (held message : Payload) : Payload :=
  if isTileMessage message then messageBody message else held ++ messageBody message

theorem messageBody_serialize (desc : TileDesc) {start : Payload} (hstart : '\n' ∉ start)
    (body : Payload) : messageBody (desc.serialize start ['\n'] ++ body) = body := by
  have hline : ∀ c ∈ desc.serialize start [], (c != '\n') = true := by
    intro c hc
    have hne : c ≠ '\n' := by
      rintro rfl
      exact desc.not_mem_serialize hstart hc
    simpa using hne
  rw [messageBody, desc.serialize_append start ['\n'], List.append_assoc,
    List.dropWhile_append_of_pos hline]
  simp

theorem isTileMessage_serialize (desc : TileDesc) (suffix body : Payload) :
    isTileMessage (desc.serialize Word.tile suffix ++ body) = true := by
  rw [desc.serialize_start]
  simp [isTileMessage, Word.tile, List.isPrefixOf]

theorem isTileMessage_serialize_delta (desc : TileDesc) (suffix body : Payload) :
    isTileMessage (desc.serialize Word.delta suffix ++ body) = false := by
  rw [desc.serialize_start]
  simp [isTileMessage, Word.tile, Word.delta, List.isPrefixOf]

/-- The message is all the data of the tile, or goes on from what the client last got. -/
theorem sendTileNow_message {t : TileData} {log : List (Nat × Payload)} (h : Represents t log)
    (tracker : ClientDeltaTracker) (desc : TileDesc) :
    let message := (sendTileNow tracker desc t).2
    let last := (tracker (cacheKey desc)).getD 0
    (isTileMessage message = true ∧ messageBody message = t.deltas) ∨
      (isTileMessage message = false ∧ t.needsKeyframe last = false ∧
        messageBody message = since log last) := by
  simp only [sendTileNow, ClientDeltaTracker.updateTileSeq, h.appendChangesSince_eq]
  cases hpng : t.isPng
  case true =>
    have hzero : t.needsKeyframe 0 = true := by
      simpa [TileData.needsKeyframe] using h.positive
    left
    simp only [Bool.or_true, if_true, h.since_of_needsKeyframe hzero]
    exact ⟨isTileMessage_serialize _ _ _, messageBody_serialize _ (by decide) _⟩
  case false =>
    by_cases hneeds : t.needsKeyframe ((tracker (cacheKey desc)).getD 0) = true
    · left
      simp only [hneeds, Bool.or_false, if_true, Bool.false_eq_true, if_false,
        h.since_of_needsKeyframe hneeds]
      exact ⟨isTileMessage_serialize _ _ _, messageBody_serialize _ (by decide) _⟩
    · right
      have hnot : t.needsKeyframe ((tracker (cacheKey desc)).getD 0) = false := by
        simpa using hneeds
      simp only [hnot, Bool.or_false, Bool.false_eq_true, if_false, true_and]
      exact ⟨isTileMessage_serialize_delta _ _ _, messageBody_serialize _ (by decide) _⟩

/-! ## Runs -/

/-- What the cache makes of a frame from the Kit; a delta without a tile is discarded. -/
def saveFrame (cached : Option TileData) (desc : TileDesc) (data : Payload) : Option TileData :=
  match cached with
  | none => if TileData.isKeyframe data then some (TileData.new desc.wireId data) else none
  | some tile => some (tile.appendBlob desc.wireId data).1

def addFrame (frames : List (Nat × Payload)) (desc : TileDesc) (data : Payload) :
    List (Nat × Payload) :=
  if TileData.isKeyframe data then [(desc.wireId, data)] else frames ++ [(desc.wireId, data)]

/-- The data of the frames, without their first bytes. -/
def bytes (frames : List (Nat × Payload)) : List (Nat × Payload) :=
  frames.map fun (wid, data) => (wid, data.tail)

/-- The first frame is the only keyframe. -/
def Keyframed (frames : List (Nat × Payload)) : Prop :=
  ∃ keyframe deltas, frames = keyframe :: deltas ∧ TileData.isKeyframe keyframe.2 = true ∧
    ∀ delta ∈ deltas, TileData.isKeyframe delta.2 = false

theorem keyframed_addFrame {frames : List (Nat × Payload)} {desc : TileDesc} {data : Payload}
    (h : TileData.isKeyframe data = true ∨ Keyframed frames) :
    Keyframed (addFrame frames desc data) := by
  rw [addFrame]
  split
  case isTrue hkey => exact ⟨(desc.wireId, data), [], rfl, hkey, by simp⟩
  case isFalse hdelta =>
    obtain ⟨keyframe, deltas, rfl, hkey, hdeltas⟩ := h.resolve_left hdelta
    refine ⟨keyframe, deltas ++ [(desc.wireId, data)], rfl, hkey, ?_⟩
    intro delta hmem
    rcases List.mem_append.mp hmem with hold | hnew
    · exact hdeltas delta hold
    · rw [List.mem_singleton.mp hnew]
      simpa using hdelta

/-- The last wire id of a tile, or 0. -/
def lastWid (cached : Option TileData) : Nat :=
  (cached.map fun tile => tile.wids.getLastD 0).getD 0

/-- A cached tile with its frames since the last keyframe, and one session: the wire id that it was
last sent, and what its client holds. -/
structure Consistent (cached : Option TileData) (frames : List (Nat × Payload)) (last : Nat)
    (held : Payload) : Prop where
  represents : ∀ tile, cached = some tile → Represents tile (bytes frames)
  keyframed : ∀ tile, cached = some tile → Keyframed frames
  seen : last ≤ lastWid cached
  holds : ∀ tile, cached = some tile → tile.needsKeyframe last = false →
    held = upTo (bytes frames) last

namespace Consistent

variable {cached : Option TileData} {tile : TileData} {frames : List (Nat × Payload)} {last : Nat}
  {held : Payload} {desc : TileDesc}

/-- A keyframe starts the tile again; the session has nothing of it. -/
theorem keyframe {t : TileData} {data : Payload} (h : Consistent cached frames last held)
    (hwid : lastWid cached < desc.wireId) (hkey : TileData.isKeyframe data = true) :
    Consistent (some (t.appendBlob desc.wireId data).1) (addFrame frames desc data) last held := by
  have hpositive : 0 < desc.wireId := by omega
  have hlast : last < desc.wireId := lt_of_le_of_lt h.seen hwid
  have hframes : addFrame frames desc data = [(desc.wireId, data)] := by
    simp [addFrame, hkey]
  rw [t.appendBlob_keyframe desc.wireId hkey]
  constructor
  case represents =>
    rintro _ ⟨⟩
    rw [hframes, ← t.appendBlob_keyframe desc.wireId hkey]
    exact Represents.keyframe hpositive hkey
  case keyframed => exact fun _ _ => keyframed_addFrame (.inl hkey)
  case seen => exact hlast.le
  case holds =>
    rintro _ ⟨⟩ hneeds
    have hle : desc.wireId ≤ last := by simpa [TileData.needsKeyframe] using hneeds
    omega

/-- A delta adds to the tile; the session has what it had. -/
theorem delta {t : TileData} {data : Payload} (h : Consistent (some t) frames last held)
    (hwid : lastWid (some t) < desc.wireId) (hkey : TileData.isKeyframe data = false) :
    Consistent (some (t.appendBlob desc.wireId data).1) (addFrame frames desc data) last held := by
  have hlast : last < desc.wireId := lt_of_le_of_lt h.seen hwid
  have hold : Represents t (bytes frames) := h.represents t rfl
  have hframes : bytes (addFrame frames desc data) = bytes frames ++ [(desc.wireId, data.tail)] := by
    simp [addFrame, hkey, bytes]
  have hnew : Represents (t.appendBlob desc.wireId data).1 (bytes (addFrame frames desc data)) := by
    rw [hframes]
    exact hold.delta hwid hkey
  constructor
  case represents =>
    rintro _ ⟨⟩
    exact hnew
  case keyframed => exact fun _ _ => keyframed_addFrame (.inr (h.keyframed t rfl))
  case seen =>
    show last ≤ (t.appendBlob desc.wireId data).1.wids.getLastD 0
    rw [TileData.appendBlob_getLastD]
    exact hlast.le
  case holds =>
    rintro _ ⟨⟩ hneeds
    rw [hframes, upTo_append_of_lt hlast]
    apply h.holds t rfl
    obtain ⟨keyframe, hmem, hle⟩ := hnew.needsKeyframe_eq_false_iff.mp hneeds
    apply hold.needsKeyframe_eq_false_iff.mpr
    obtain ⟨first, deltas, hkeyframed, -, -⟩ := h.keyframed t rfl
    rw [hframes] at hmem
    exact ⟨keyframe, by simpa [hkeyframed, bytes] using hmem, hle⟩

theorem saveFrame {data : Payload} (h : Consistent cached frames last held)
    (hwid : lastWid cached < desc.wireId) (hsave : Wsd.saveFrame cached desc data = some tile) :
    Consistent (some tile) (addFrame frames desc data) last held := by
  cases hkey : TileData.isKeyframe data with
  | true =>
      cases cached with
      | none =>
          obtain rfl : TileData.new desc.wireId data = tile := by
            simpa [Wsd.saveFrame, hkey] using hsave
          exact h.keyframe hwid hkey
      | some t =>
          obtain rfl : (t.appendBlob desc.wireId data).1 = tile := by
            simpa [Wsd.saveFrame] using hsave
          exact h.keyframe hwid hkey
  | false =>
      cases cached with
      | none => simp [Wsd.saveFrame, hkey] at hsave
      | some t =>
          obtain rfl : (t.appendBlob desc.wireId data).1 = tile := by
            simpa [Wsd.saveFrame] using hsave
          exact h.delta hwid hkey

/-- Nothing that the client was sent counts any more. -/
theorem reset (h : Consistent cached frames last held) : Consistent cached frames 0 held := by
  constructor
  case represents => exact h.represents
  case keyframed => exact h.keyframed
  case seen => exact Nat.zero_le _
  case holds =>
    intro tile htile hneeds
    have hpositive := (h.represents tile htile).positive
    have hzero : tile.wids.headD 0 ≤ 0 := by simpa [TileData.needsKeyframe] using hneeds
    omega

/-- A message holds all the data, or the frames after those that the client holds; the keyframe is
among these. -/
def GoesOn (log : List (Nat × Payload)) (held message : Payload) : Prop :=
  (isTileMessage message = true ∧ messageBody message = contents log) ∨
    (isTileMessage message = false ∧ ∃ last, (∃ keyframe ∈ log.head?, keyframe.1 ≤ last) ∧
      held = upTo log last ∧ messageBody message = since log last)

theorem goesOn {tracker : ClientDeltaTracker}
    (h : Consistent (some tile) frames ((tracker (cacheKey desc)).getD 0) held) :
    GoesOn (bytes frames) held (sendTileNow tracker desc tile).2 := by
  have hrepresents := h.represents tile rfl
  rcases sendTileNow_message hrepresents tracker desc with ⟨htile, hbody⟩ | ⟨hdelta, hneeds, hbody⟩
  · exact .inl ⟨htile, hbody.trans hrepresents.stored⟩
  · exact .inr ⟨hdelta, _, hrepresents.needsKeyframe_eq_false_iff.mp hneeds,
      h.holds tile rfl hneeds, hbody⟩

/-- After the message the client has all the data. -/
theorem receive_eq {message : Payload} (h : Represents tile (bytes frames))
    (hmessage : GoesOn (bytes frames) held message) : receive held message = tile.deltas := by
  rw [h.stored]
  rcases hmessage with ⟨htile, hbody⟩ | ⟨hdelta, last, -, hheld, hbody⟩
  · rw [receive, htile, if_pos rfl, hbody]
  · rw [receive, hdelta, if_neg Bool.false_ne_true, hbody, hheld, upTo_append_since h.increasing]

/-- The client is sent the last wire id. -/
theorem send {tracker : ClientDeltaTracker}
    (h : Consistent (some tile) frames ((tracker (cacheKey desc)).getD 0) held) :
    Consistent (some tile) frames (tile.wids.getLastD 0)
      (receive held (sendTileNow tracker desc tile).2) := by
  have hrepresents := h.represents tile rfl
  constructor
  case represents => exact h.represents
  case keyframed => exact h.keyframed
  case seen => exact le_rfl
  case holds =>
    rintro _ ⟨⟩ -
    rw [receive_eq hrepresents h.goesOn, hrepresents.stored, upTo_eq_contents hrepresents.newest]

end Consistent

/-! ## Runs -/

/-- The cached tiles with the frames since the last keyframe of each, and the sessions: what was
sent to each, and what its client holds. -/
structure DeltaStream (σ : Type) where
  tiles : TileKey → Option TileData
  frames : TileKey → List (Nat × Payload)
  trackers : σ → ClientDeltaTracker
  held : σ → TileKey → Payload

inductive DeltaEvent (σ : Type) where
  | appendBlob (desc : TileDesc) (data : Payload)
  | sendTileNow (session : σ) (desc : TileDesc)
  | resetTileSeq (session : σ) (desc : TileDesc)

namespace DeltaStream

variable {σ : Type}

def start : DeltaStream σ := ⟨fun _ => none, fun _ => [], fun _ _ => none, fun _ _ => []⟩

/-- Each session has of each tile what its tracker says. -/
def Inv (s : DeltaStream σ) : Prop :=
  ∀ session key, Consistent (s.tiles key) (s.frames key) ((s.trackers session key).getD 0)
    (s.held session key)

theorem inv_start : Inv (start : DeltaStream σ) := by
  intro session key
  constructor <;> simp [start]

variable [DecidableEq σ]

/-- Frames come with increasing wire ids, and a tile is sent under its last wire id. -/
def step (s : DeltaStream σ) : DeltaEvent σ → Option (DeltaStream σ)
  | .appendBlob desc data =>
      let key := cacheKey desc
      if data ≠ [] ∧ lastWid (s.tiles key) < desc.wireId then
        (saveFrame (s.tiles key) desc data).map fun tile =>
          { s with
            tiles := Function.update s.tiles key (some tile)
            frames := Function.update s.frames key (addFrame (s.frames key) desc data) }
      else none
  | .sendTileNow session desc =>
      let key := cacheKey desc
      (s.tiles key).bind fun tile =>
        if desc.wireId = tile.wids.getLastD 0 then
          let (tracker, message) := sendTileNow (s.trackers session) desc tile
          some
            { s with
              trackers := Function.update s.trackers session tracker
              held := Function.update s.held session
                (Function.update (s.held session) key (receive (s.held session key) message)) }
        else none
  | .resetTileSeq session desc =>
      some
        { s with
          trackers := Function.update s.trackers session
            ((s.trackers session).resetTileSeq desc) }

theorem inv_step {s s' : DeltaStream σ} {e : DeltaEvent σ} (hstep : s.step e = some s')
    (h : Inv s) : Inv s' := by
  intro session' key'
  have hbefore := h session' key'
  cases e with
  | appendBlob desc data =>
      simp only [step, Option.ite_none_right_eq_some, Option.map_eq_some_iff] at hstep
      obtain ⟨⟨-, hwid⟩, tile, hsave, rfl⟩ := hstep
      by_cases hkey : key' = cacheKey desc
      · subst hkey
        simpa using hbefore.saveFrame hwid hsave
      · simpa [hkey] using hbefore
  | sendTileNow session desc =>
      simp only [step, Option.bind_eq_some_iff, Option.ite_none_right_eq_some,
        Option.some.injEq] at hstep
      obtain ⟨tile, htile, hwid, rfl⟩ := hstep
      by_cases hsession : session' = session
      · subst hsession
        by_cases hkey : key' = cacheKey desc
        · subst hkey
          rw [htile] at hbefore
          simpa [sendTileNow, ClientDeltaTracker.updateTileSeq, htile, hwid] using hbefore.send
        · simpa [sendTileNow, ClientDeltaTracker.updateTileSeq, hkey] using hbefore
      · simpa [hsession] using hbefore
  | resetTileSeq session desc =>
      obtain rfl := Option.some.inj hstep
      by_cases hsession : session' = session
      · subst hsession
        by_cases hkey : key' = cacheKey desc
        · subst hkey
          cases hlast : s.trackers session' (cacheKey desc) with
          | none => simpa [ClientDeltaTracker.resetTileSeq, hlast] using hbefore.reset
          | some last => simpa [ClientDeltaTracker.resetTileSeq, hlast] using hbefore.reset
        · cases hlast : s.trackers session' (cacheKey desc) with
          | none => simpa [ClientDeltaTracker.resetTileSeq, hlast, hkey] using hbefore
          | some last => simpa [ClientDeltaTracker.resetTileSeq, hlast, hkey] using hbefore
      · simpa [hsession] using hbefore

theorem inv_run {es : List (DeltaEvent σ)} {s : DeltaStream σ}
    (hrun : run step start es = some s) : Inv s :=
  run_invariant step (fun _ _ _ => inv_step) hrun inv_start

/-- After a tile message a client holds the stored data of the tile: all the frames since the last
keyframe, of which the message has those that the client did not hold. -/
theorem held_eq_stored_of_sendTileNow {es : List (DeltaEvent σ)} {s s' : DeltaStream σ}
    {session : σ} {desc : TileDesc} (hrun : run step start es = some s)
    (hsend : s.step (.sendTileNow session desc) = some s') :
    ∃ tile frames, s.tiles (cacheKey desc) = some tile ∧ s.frames (cacheKey desc) = frames ∧
      Keyframed frames ∧ Increasing (bytes frames) ∧ tile.deltas = contents (bytes frames) ∧
      Consistent.GoesOn (bytes frames) (s.held session (cacheKey desc))
        (sendTileNow (s.trackers session) desc tile).2 ∧
      s'.held session (cacheKey desc) = tile.deltas := by
  have hbefore := inv_run hrun session (cacheKey desc)
  simp only [step, Option.bind_eq_some_iff, Option.ite_none_right_eq_some,
    Option.some.injEq] at hsend
  obtain ⟨tile, htile, -, rfl⟩ := hsend
  rw [htile] at hbefore
  have hrepresents := hbefore.represents tile rfl
  refine ⟨tile, _, htile, rfl, hbefore.keyframed tile rfl, hrepresents.increasing,
    hrepresents.stored, hbefore.goesOn, ?_⟩
  simpa using Consistent.receive_eq hrepresents hbefore.goesOn

/-- A tile under a wire id. -/
def tileOf (wireId : Nat) : TileDesc :=
  { TileDesc.parseDefaults with
    width := 256, height := 256, tileWidth := 3840, tileHeight := 3840, wireId := wireId }

/-- A keyframe that is sent, an empty delta and a delta with data. -/
def threeFrames : List (DeltaEvent Nat) :=
  [.appendBlob (tileOf 1) ['Z', 'a', 'b'], .sendTileNow 0 (tileOf 1), .appendBlob (tileOf 2) ['D'],
    .appendBlob (tileOf 3) ['D', 'c']]

theorem held_eq_stored_threeFrames :
    ∃ s s' : DeltaStream Nat, run step start threeFrames = some s ∧
      s.step (.sendTileNow 0 (tileOf 3)) = some s' ∧
      s'.held 0 (cacheKey (tileOf 3)) = ['a', 'b', 'c'] := by
  obtain ⟨s, hrun, hstored, hcan⟩ := run_reaches step start threeFrames
    (P := fun s : DeltaStream Nat =>
      (s.tiles (cacheKey (tileOf 3))).map TileData.deltas = some ['a', 'b', 'c'] ∧
        (s.step (.sendTileNow 0 (tileOf 3))).isSome = true) (by decide +kernel)
  obtain ⟨s', hsend⟩ := Option.isSome_iff_exists.mp hcan
  obtain ⟨tile, -, htile, -, -, -, -, -, hheld⟩ := held_eq_stored_of_sendTileNow hrun hsend
  rw [htile] at hstored
  exact ⟨s, s', hrun, hsend, hheld.trans (Option.some.inj hstored)⟩

end DeltaStream

end CoolOnline.Wsd
