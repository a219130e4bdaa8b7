import CoolOnline.Library.NumberedLog
import CoolOnline.Wsd.TileMessage

/-! # Cached tiles and what clients have of them

`TileData`, `TileDescCacheCompareEq` and `ClientDeltaTracker` of `wsd/TileCache.hpp`, and
`ClientSession::sendTileNow`. The cached data of a tile is a keyframe and the deltas after it.
-/

namespace CoolOnline.Wsd

/-- What the cache compares of a description. -/
structure TileKey where
  part : Int
  width : Int
  height : Int
  tilePosX : Int
  tilePosY : Int
  tileWidth : Int
  tileHeight : Int
  canonicalViewId : Int
  mode : Int
deriving DecidableEq, Repr

def cacheKey (desc : TileDesc) : TileKey where
  part := desc.part
  width := desc.width
  height := desc.height
  tilePosX := desc.tilePosX
  tilePosY := desc.tilePosY
  tileWidth := desc.tileWidth
  tileHeight := desc.tileHeight
  canonicalViewId := desc.canonicalViewId
  mode := desc.mode

/-- Of the `_deltas`, the first item is a keyframe, followed by deltas at `offsets`. -/
structure TileData where
  wids : List Nat
  offsets : List Nat
  deltas : Payload
  valid : Bool
deriving DecidableEq, Repr

namespace TileData

/-- The first byte of a PNG. -/
def pngByte : Char := '\x89'

def isKeyframe (data : Payload) : Bool :=
  data.head? == some 'Z' || data.head? == some pngByte

variable (t : TileData)

def size : Nat := t.deltas.length

def cleared : TileData := { t with wids := [], offsets := [], deltas := [] }

/-- Add a frame or delta; the data has a first byte that tells which, and it is not kept. An empty
delta after another one only gives it a new wire id. -/
def addBlob (id : Nat) (data : Payload) : TileData :=
  if data.length = 1 ∧ 1 < t.offsets.length ∧ t.offsets.getLast? = some t.size then
    { t with wids := t.wids.dropLast ++ [id], valid := true }
  else
    { wids := t.wids ++ [id]
      offsets := t.offsets ++ [t.size]
      deltas := t.deltas ++ data.tail
      valid := true }

/-- `TileData::appendBlob`, with the size change that it returns. -/
def appendBlob (id : Nat) (data : Payload) : TileData × Int :=
  let t' := (if isKeyframe data then t.cleared else t).addBlob id data
  (t', t'.size - t.size)

/-- The constructor. -/
def new (start : Nat) (data : Payload) : TileData :=
  ((⟨[], [], [], true⟩ : TileData).appendBlob start data).1

theorem addBlob_getLastD (id : Nat) (data : Payload) :
    (t.addBlob id data).wids.getLastD 0 = id := by
  rw [addBlob]
  split <;> simp

theorem appendBlob_keyframe (id : Nat) {data : Payload} (hkey : isKeyframe data = true) :
    (t.appendBlob id data).1 = ⟨[id], [0], data.tail, true⟩ := by
  simp [appendBlob, addBlob, cleared, size, hkey]

theorem appendBlob_getLastD (id : Nat) (data : Payload) :
    (t.appendBlob id data).1.wids.getLastD 0 = id := addBlob_getLastD _ _ _

/-- Whether to stop stacking deltas and render a keyframe; a keyframe gets a free size pass. -/
def tooLarge : Bool := 1 < t.offsets.length && 128 * 1024 < t.size - t.offsets.getD 1 0

def isPng : Bool := 1 < t.size && t.deltas.head? == some pngByte

/-- Whether the keyframe has to be sent before the changes since this id. -/
def needsKeyframe (since : Nat) : Bool := since < t.wids.headD 0

/-- The output with the changes since an id, and whether there were any; the id is 0 for all. -/
def appendChangesSince (output : Payload) (since : Nat) : Payload × Bool :=
  let i := if since = 0 then 0 else t.wids.findIdx fun wid => since < wid
  if t.wids.length ≤ i then (output, false)
  else (output ++ t.deltas.drop (t.offsets.getD i 0), true)

end TileData

/-- For each tile sent to the client, the wire id that was sent last. -/
abbrev ClientDeltaTracker := TileKey → Option Nat

namespace ClientDeltaTracker

variable (tracker : ClientDeltaTracker) (desc : TileDesc)

/-- The wire id sent last, or 0, and the tracker with the id of `desc`. -/
def updateTileSeq : Nat × ClientDeltaTracker :=
  ((tracker (cacheKey desc)).getD 0,
    Function.update tracker (cacheKey desc) (some desc.wireId))

def resetTileSeq : ClientDeltaTracker :=
  match tracker (cacheKey desc) with
  | none => tracker
  | some _ => Function.update tracker (cacheKey desc) (some 0)

end ClientDeltaTracker

namespace Word

def tile : Payload := ['t', 'i', 'l', 'e', ':']
def delta : Payload := ['d', 'e', 'l', 't', 'a', ':']

end Word

/-- `ClientSession::sendTileNow`: the tracker, and the message to the client. -/
def sendTileNow (tracker : ClientDeltaTracker) (desc : TileDesc) (tile : TileData) :
    ClientDeltaTracker × Payload :=
  let (lastSentId, tracker) := tracker.updateTileSeq desc
  let header :=
    if tile.needsKeyframe lastSentId || tile.isPng then desc.serialize Word.tile ['\n']
    else desc.serialize Word.delta ['\n']
  (tracker, (tile.appendChangesSince header (if tile.isPng then 0 else lastSentId)).1)

/-! ## Cached data as a log of frames -/

open NumberedLog

/-- The cached data of a tile is that of a log of frames, which starts with its keyframe. An empty
delta may share its place with the one before it. -/
structure Represents (t : TileData) (log : List (Nat × Payload)) : Prop where
  increasing : Increasing log
  nonempty : t.wids ≠ []
  length : t.offsets.length = t.wids.length
  starts : t.offsets.head? = some 0
  bounded : ∀ offset ∈ t.offsets, offset ≤ t.size
  ascending : ∀ wid ∈ t.wids, wid ≤ t.wids.getLastD 0
  positive : 0 < t.wids.headD 0
  first : log.head?.map Prod.fst = t.wids.head?
  newest : ∀ frame ∈ log, frame.1 ≤ t.wids.getLastD 0
  stored : t.deltas = contents log
  placed : Placed t.wids t.offsets t.deltas log

namespace Represents

variable {t : TileData} {log : List (Nat × Payload)} {id : Nat} {data : Payload}

theorem keyframe (hid : 0 < id) (hkey : TileData.isKeyframe data = true) :
    Represents (t.appendBlob id data).1 [(id, data.tail)] := by
  rw [t.appendBlob_keyframe id hkey]
  constructor
  case placed => exact Placed.singleton id data.tail
  all_goals simp [Increasing, hid]

theorem oldest (h : Represents t log) : ∀ frame ∈ log, t.wids.headD 0 ≤ frame.1 := by
  have hfirst := h.first
  cases log with
  | nil => simp
  | cons first log =>
      have hhead : t.wids.headD 0 = first.1 := by
        rw [List.headD_eq_head?_getD, ← hfirst]
        rfl
      rw [hhead]
      intro frame hframe
      rcases List.mem_cons.mp hframe with rfl | hlater
      · exact le_rfl
      · exact (List.rel_of_pairwise_cons h.increasing hlater).le

/-- A new frame behind wids that are kept. -/
theorem extend {wids offsets kept offsets' : List Nat} {deltas : Payload} {valid : Bool}
    (block : Payload) (h : Represents ⟨wids, offsets, deltas, valid⟩ log) (hkept : kept <+: wids)
    (hne : kept ≠ []) (hid : ∀ wid ∈ kept, wid < id) (hnewer : ∀ frame ∈ log, frame.1 < id)
    (hlength : offsets'.length = kept.length + 1) (hstarts : offsets'.head? = some 0)
    (hbounded : ∀ offset ∈ offsets', offset ≤ (deltas ++ block).length)
    (hplaced : Placed (kept ++ [id]) offsets' (deltas ++ block) (log ++ [(id, block)])) :
    Represents ⟨kept ++ [id], offsets', deltas ++ block, true⟩ (log ++ [(id, block)]) := by
  have hlast : (kept ++ [id]).getLastD 0 = id := by simp
  have hhead : (kept ++ [id]).head? = wids.head? := by
    obtain ⟨rest, rfl⟩ := hkept
    cases kept with
    | nil => exact absurd rfl hne
    | cons first kept => rfl
  have hfirst : log.head?.map Prod.fst = wids.head? := h.first
  constructor
  case increasing => exact h.increasing.append hnewer
  case nonempty => simp
  case length => simpa using hlength
  case starts => exact hstarts
  case bounded => exact hbounded
  case ascending =>
    rw [hlast]
    exact List.forall_mem_append.mpr
      ⟨fun wid hwid => (hid wid hwid).le, List.forall_mem_singleton.mpr le_rfl⟩
  case positive =>
    rw [List.headD_eq_head?_getD, hhead, ← List.headD_eq_head?_getD]
    exact h.positive
  case first =>
    rw [hhead, ← hfirst]
    cases log with
    | nil => exact absurd (List.head?_eq_none_iff.mp hfirst.symm) h.nonempty
    | cons frame log => rfl
  case newest =>
    rw [hlast]
    exact List.forall_mem_append.mpr
      ⟨fun frame hframe => (hnewer frame hframe).le, List.forall_mem_singleton.mpr le_rfl⟩
  case stored =>
    have hstored : deltas = contents log := h.stored
    simp [hstored]
  case placed => exact hplaced

/-- A delta with data, or the first one after the keyframe. -/
theorem push {wids offsets : List Nat} {deltas : Payload} {valid : Bool} (block : Payload)
    (h : Represents ⟨wids, offsets, deltas, valid⟩ log) (hid : wids.getLastD 0 < id) :
    Represents ⟨wids ++ [id], offsets ++ [deltas.length], deltas ++ block, true⟩
      (log ++ [(id, block)]) := by
  have hnewer : ∀ frame ∈ log, frame.1 < id := fun frame hframe =>
    lt_of_le_of_lt (h.newest frame hframe) hid
  have hascending : ∀ wid ∈ wids, wid < id := fun wid hwid =>
    lt_of_le_of_lt (h.ascending wid hwid) hid
  have hlength : offsets.length = wids.length := h.length
  have hstarts : offsets.head? = some 0 := h.starts
  have hbounded : ∀ offset ∈ offsets ++ [deltas.length], offset ≤ deltas.length :=
    List.forall_mem_append.mpr ⟨h.bounded, List.forall_mem_singleton.mpr le_rfl⟩
  refine h.extend block (List.prefix_refl wids) h.nonempty hascending hnewer (by simp [hlength])
    (by simp [List.head?_append, hstarts]) (fun offset hoffset => ?_)
    (h.placed.append hlength h.bounded hascending hnewer)
  rw [List.length_append]
  exact (hbounded offset hoffset).trans (Nat.le_add_right _ _)

/-- An empty delta after another one. -/
theorem bump {wids offsets : List Nat} {last : Nat} {deltas : Payload} {valid : Bool}
    (h : Represents ⟨wids ++ [last], offsets ++ [deltas.length], deltas, valid⟩ log)
    (hmore : offsets ≠ []) (hid : last < id) :
    Represents ⟨wids ++ [id], offsets ++ [deltas.length], deltas, true⟩ (log ++ [(id, [])]) := by
  have hnewest : ∀ frame ∈ log, frame.1 ≤ last := by
    simpa using h.newest
  have hascending : ∀ wid ∈ wids, wid < id := by
    intro wid hwid
    have hle : wid ≤ last := by simpa using h.ascending wid (List.mem_append_left _ hwid)
    exact lt_of_le_of_lt hle hid
  have hlength : offsets.length = wids.length := by
    simpa using h.length
  have hne : wids ≠ [] := fun hnil =>
    hmore (List.length_eq_zero_iff.mp (by rw [hlength, hnil, List.length_nil]))
  have hplaced := h.placed.renumber hlength id
  have hextended := h.extend [] (List.prefix_append wids [last]) hne hascending
    (fun frame hframe => lt_of_le_of_lt (hnewest frame hframe) hid) (by simp [hlength]) h.starts
    (by rw [List.append_nil]; exact h.bounded) (by rwa [List.append_nil])
  rwa [List.append_nil] at hextended

theorem delta (h : Represents t log) (hid : t.wids.getLastD 0 < id)
    (hkey : TileData.isKeyframe data = false) :
    Represents (t.appendBlob id data).1 (log ++ [(id, data.tail)]) := by
  obtain ⟨wids, offsets, deltas, valid⟩ := t
  simp only [TileData.appendBlob, hkey, Bool.false_eq_true, if_false, TileData.addBlob]
  split
  case isTrue hempty =>
    obtain ⟨hone, hmore, hlast⟩ := hempty
    have htail : data.tail = [] := by
      rw [← List.length_eq_zero_iff, List.length_tail, hone]
    have hplace : offsets.getLast? = some deltas.length := hlast
    obtain ⟨offsets, rfl⟩ := List.getLast?_eq_some_iff.mp hplace
    obtain ⟨wids, last, rfl⟩ := List.eq_nil_or_concat' wids |>.resolve_left h.nonempty
    have hoffsets : offsets ≠ [] := by
      rintro rfl
      simp at hmore
    rw [htail]
    simpa [TileData.size] using h.bump hoffsets (by simpa using hid)
  case isFalse hempty => exact h.push data.tail hid

/-- The changes since an id are appended; 0 and every id before the keyframe ask for all. -/
theorem appendChangesSince_eq (h : Represents t log) (output : Payload) (id : Nat) :
    (t.appendChangesSince output id).1 = output ++ since log id := by
  have hchanges : t.deltas.drop (place t.wids t.offsets id t.size) = since log id := h.placed id
  have hidx : (if id = 0 then 0 else t.wids.findIdx fun wid => id < wid) =
      t.wids.findIdx fun wid => id < wid := by
    split
    case isTrue hzero =>
      have hpositive := h.positive
      cases hwids : t.wids with
      | nil => rfl
      | cons wid wids =>
          have hlt : id < wid := by simpa [hwids, hzero] using hpositive
          simp [List.findIdx_cons, hlt]
    case isFalse => rfl
  simp only [TileData.appendChangesSince, hidx]
  rw [← hchanges, place, List.getD_eq_getElem?_getD, List.getD_eq_getElem?_getD]
  split
  case isTrue hend =>
    have hnone : t.offsets[t.wids.findIdx fun wid => decide (id < wid)]? = none := by
      rw [List.getElem?_eq_none_iff, h.length]
      exact hend
    simp [hnone, TileData.size]
  case isFalse hfound =>
    have hlt : (t.wids.findIdx fun wid => decide (id < wid)) < t.offsets.length := by
      rw [h.length]
      omega
    simp [List.getElem?_eq_getElem hlt]

/-- A client has the keyframe if it has been sent an id that is not before it. -/
theorem needsKeyframe_eq_false_iff (h : Represents t log) {id : Nat} :
    t.needsKeyframe id = false ↔ ∃ keyframe ∈ log.head?, keyframe.1 ≤ id := by
  have hfirst := h.first
  cases hwids : t.wids with
  | nil => exact absurd hwids h.nonempty
  | cons wid wids =>
      cases log with
      | nil => simp [hwids] at hfirst
      | cons keyframe log =>
          have hwid : keyframe.1 = wid := by simpa [hwids] using hfirst
          simp [TileData.needsKeyframe, hwids, hwid]

theorem since_of_needsKeyframe (h : Represents t log) {id : Nat}
    (hid : t.needsKeyframe id = true) : since log id = t.deltas := by
  have hlt : id < t.wids.headD 0 := by simpa [TileData.needsKeyframe] using hid
  rw [h.stored]
  exact since_eq_contents fun frame hframe => lt_of_lt_of_le hlt (h.oldest frame hframe)

end Represents

end CoolOnline.Wsd
