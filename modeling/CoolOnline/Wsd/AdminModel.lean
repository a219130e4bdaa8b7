import Mathlib.Data.List.Sort
import CoolOnline.Library.History
import CoolOnline.Library.OrderedMap
import CoolOnline.Common.Protocol

/-! # The documents of the admin console

The views of the documents in `AdminModel` of `wsd/AdminModel.cpp`: how they are counted and expire,
and how a document goes into the expired histories and the aggregate statistics. What the
subscribers are told, and the memory and the traffic of a document, are left out.
-/

namespace CoolOnline.Admin

/-- A client view, with `_end`. -/
structure View where
  endTime : Nat
deriving DecidableEq, Repr

namespace View

def new : View := ⟨0⟩

def expire (now : Nat) (view : View) : View := { view with endTime := now }

def isExpired (now : Nat) (view : View) : Bool := view.endTime ≠ 0 && view.endTime ≤ now

@[simp] theorem isExpired_new (now : Nat) : new.isExpired now = false := rfl

theorem isExpired_expire {now : Nat} (view : View) (hnow : 0 < now) :
    (view.expire now).isExpired now = true := by
  simp [isExpired, expire, hnow.ne']

end View

structure Snapshot where
  creationTime : Nat
  activeViews : UInt32
  /-- The session ids of the views, with a mark on those of expired ones. -/
  views : List (Payload × Bool)
deriving DecidableEq, Repr

/-- What is kept of an expired document. -/
structure History where
  docKey : Payload
  filename : Payload
  start : Nat
  endTime : Nat
  pid : Int
  snapshots : List Snapshot
deriving DecidableEq, Repr

structure Document where
  views : OrderedMap Payload View
  snapshots : List Snapshot
  docKey : Payload
  filename : Payload
  start : Nat
  endTime : Nat
  lastSnapshotTime : Nat
  pid : Int
  activeViews : UInt32

namespace Document

def new (docKey : Payload) (pid : Int) (filename : Payload) (now : Nat) : Document where
  views := .empty
  snapshots := []
  docKey := docKey
  filename := filename
  start := now
  endTime := 0
  lastSnapshotTime := 0
  pid := pid
  activeViews := 0

section

variable (now : Nat) (d : Document)

def isExpired : Bool := d.endTime ≠ 0 && d.endTime ≤ now

/-- The views in the order of their session ids. -/
def getViews : List (Payload × View) := d.views.entries.insertionSort fun a b => a.1 ≤ b.1

def getSnapshot : Snapshot where
  creationTime := now
  activeViews := d.activeViews
  views := d.getViews.map fun view => (view.1, view.2.isExpired now)

def takeSnapshot : Document :=
  if now = d.lastSnapshotTime then d
  else { d with snapshots := d.snapshots ++ [d.getSnapshot now], lastSnapshotTime := now }

def getHistory : History :=
  ⟨d.docKey, d.filename, d.start, d.endTime, d.pid, d.snapshots⟩

def addView (sessionId : Payload) : Document :=
  if d.views.has sessionId then d
  else { d with views := d.views.set sessionId .new, activeViews := d.activeViews + 1 }

/-- The number of active views that is returned is that of the document. -/
def expireView (sessionId : Payload) : Document :=
  match d.views.get sessionId with
  | none => d.takeSnapshot now
  | some view =>
      -- The counter goes down for a view that has expired before, too.
      let activeViews := d.activeViews - 1
      takeSnapshot now
        { d with
          views := d.views.set sessionId (view.expire now)
          activeViews := activeViews
          endTime := if activeViews = 0 then now else d.endTime }

/-- What the statistics are given of the views. -/
def viewsCount : UInt64 := .ofNat d.getViews.length

def activeViewsCount : UInt64 := d.activeViews.toUInt64

def expiredViewsCount : UInt64 := d.viewsCount - d.activeViewsCount

end

end Document

structure AggregateStats where
  total : UInt64
  min : UInt64
  max : UInt64
  count : UInt64
deriving DecidableEq, Repr

namespace AggregateStats

def new : AggregateStats := ⟨0, .ofNat (2 ^ 64 - 1), 0, 0⟩

def update (stats : AggregateStats) (value : UInt64) : AggregateStats where
  total := stats.total + value
  min := if stats.min > value then value else stats.min
  max := if stats.max < value then value else stats.max
  count := stats.count + 1

end AggregateStats

structure ActiveExpiredStats where
  all : AggregateStats
  active : AggregateStats
  expired : AggregateStats
deriving DecidableEq, Repr

namespace ActiveExpiredStats

def new : ActiveExpiredStats := ⟨.new, .new, .new⟩

def update (stats : ActiveExpiredStats) (value : UInt64) (active : Bool) : ActiveExpiredStats where
  all := stats.all.update value
  active := if active then stats.active.update value else stats.active
  expired := if active then stats.expired else stats.expired.update value

end ActiveExpiredStats

/-- The view counts of `DocumentAggregateStats`. -/
structure DocumentAggregateStats where
  viewsCount : ActiveExpiredStats
  activeViewsCount : ActiveExpiredStats
  expiredViewsCount : ActiveExpiredStats
deriving DecidableEq, Repr

namespace DocumentAggregateStats

def new : DocumentAggregateStats := ⟨.new, .new, .new⟩

def update (stats : DocumentAggregateStats) (d : Document) (active : Bool) :
    DocumentAggregateStats where
  viewsCount := stats.viewsCount.update d.viewsCount active
  activeViewsCount := stats.activeViewsCount.update d.activeViewsCount active
  expiredViewsCount := stats.expiredViewsCount.update d.expiredViewsCount active

end DocumentAggregateStats

structure AdminModel where
  /-- What `std::time` gives. -/
  now : Nat
  documents : OrderedMap Payload Document
  expiredDocumentsHistories : List History
  /-- `ExpiredDocStats`. -/
  expiredDocStats : DocumentAggregateStats

inductive Event
  /-- The clock is at another time. -/
  | clock (now : Nat)
  | addDocument (docKey : Payload) (pid : Int) (filename sessionId : Payload)
  /-- `removeDocument(docKey, sessionId)`. -/
  | removeView (docKey sessionId : Payload)
  /-- `removeDocument(docKey)`. -/
  | removeDocument (docKey : Payload)
deriving DecidableEq, Repr

namespace AdminModel

def new (now : Nat) : AdminModel := ⟨now, .empty, [], .new⟩

section

variable (s : AdminModel)

def addDocument (docKey : Payload) (pid : Int) (filename sessionId : Payload) : AdminModel :=
  let d := (s.documents.get docKey).getD (.new docKey pid filename s.now)
  { s with documents := s.documents.set docKey ((d.takeSnapshot s.now).addView sessionId) }

/-- The document of a key, as it is by now, is done with. -/
def doRemove (docKey : Payload) (d : Document) : AdminModel :=
  { s with
    expiredDocStats := s.expiredDocStats.update d false
    expiredDocumentsHistories := s.expiredDocumentsHistories ++ [d.getHistory]
    documents := s.documents.delete docKey }

def removeView (docKey sessionId : Payload) : AdminModel :=
  match s.documents.get docKey with
  | none => s
  | some d =>
      if d.isExpired s.now then s
      else
        let d := d.expireView s.now sessionId
        if d.activeViews = 0 then s.doRemove docKey d
        else { s with documents := s.documents.set docKey d }

def removeDocument (docKey : Payload) : AdminModel :=
  match s.documents.get docKey with
  | none => s
  | some d =>
      s.doRemove docKey (d.getViews.foldl (fun d view => d.expireView s.now view.1) d)

/-- The statistics of all documents, also of those that are still there. -/
def calcDocAggregateStats : DocumentAggregateStats :=
  s.documents.values.foldl (fun stats d => stats.update d true) s.expiredDocStats

def next : Event → AdminModel
  | .clock now => { s with now := now }
  | .addDocument docKey pid filename sessionId => s.addDocument docKey pid filename sessionId
  | .removeView docKey sessionId => s.removeView docKey sessionId
  | .removeDocument docKey => s.removeDocument docKey

end

def step (s : AdminModel) (e : Event) : Option AdminModel := some (s.next e)

end AdminModel

/-! ## What the counts are to be -/

namespace Document

/-- The number of views that have not expired. -/
def unexpired (now : Nat) (d : Document) : Nat :=
  d.views.values.countP fun view => !view.isExpired now

/-- The view counts are those of the views. -/
structure Accounted (now : Nat) (d : Document) : Prop where
  active : d.activeViews.toNat = d.unexpired now
  views : d.viewsCount.toNat = d.views.keys.length
  expired : d.expiredViewsCount.toNat + d.unexpired now = d.views.keys.length

instance {now : Nat} {d : Document} : Decidable (d.Accounted now) :=
  decidable_of_iff
    (d.activeViews.toNat = d.unexpired now ∧ d.viewsCount.toNat = d.views.keys.length ∧
      d.expiredViewsCount.toNat + d.unexpired now = d.views.keys.length)
    ⟨fun h => ⟨h.1, h.2.1, h.2.2⟩, fun h => ⟨h.1, h.2, h.3⟩⟩

/-- One document, before and after. -/
structure Continues (before after : Document) : Prop where
  docKey : after.docKey = before.docKey
  start : after.start = before.start
  views : after.views.keys = before.views.keys

/-- A view is there, has not expired, and the others have. -/
def isLast (now : Nat) (d : Document) (sessionId : Payload) : Bool :=
  (d.views.get sessionId).any (fun view => !view.isExpired now) && d.unexpired now = 1

end Document

namespace AdminModel

/-- The document that is to go with an event: the last of its views that have not expired goes, or
it goes as a whole. -/
def leaving (s : AdminModel) : Event → Option Payload
  | .removeView docKey sessionId =>
      if (s.documents.get docKey).any fun d => d.isLast s.now sessionId then some docKey else none
  | .removeDocument docKey => if s.documents.has docKey then some docKey else none
  | _ => none

/-- A document is in the histories and in the statistics, with its views expired, and no more among
the documents; nothing else has changed. -/
def Moved (s : AdminModel) (docKey : Payload) (s' : AdminModel) : Prop :=
  ∃ before after, s.documents.get docKey = some before ∧ before.Continues after ∧
    after.unexpired s.now = 0 ∧ after.Accounted s.now ∧ s' = s.doRemove docKey after

/-- All documents are still there, and nothing is new in the histories and in the statistics. -/
def Kept (s s' : AdminModel) : Prop :=
  (∀ docKey, s.documents.has docKey = true → s'.documents.has docKey = true) ∧
    s'.expiredDocumentsHistories = s.expiredDocumentsHistories ∧
    s'.expiredDocStats = s.expiredDocStats

/-- The documents are accounted for, and those that are to go, and no others, are moved to the
histories. -/
structure Accounts (s : AdminModel) (e : Event) (s' : AdminModel) : Prop where
  documents : ∀ docKey d, s'.documents.get docKey = some d → d.Accounted s'.now
  moved : ∀ docKey, s.leaving e = some docKey → s.Moved docKey s'
  kept : s.leaving e = none → s.Kept s'

/-- No view that has expired goes again, alone or with its document; the clock is not set back, and
the sessions of a document can be counted. -/
def once (s : AdminModel) : Event → Bool
  | .clock now => s.now ≤ now
  | .addDocument docKey _ _ _ =>
      (s.documents.get docKey).all fun d => d.views.keys.length + 1 < 2 ^ 32
  | .removeView docKey sessionId =>
      0 < s.now && (s.documents.get docKey).all fun d =>
        (d.views.get sessionId).all fun view => !view.isExpired s.now
  | .removeDocument docKey =>
      0 < s.now && (s.documents.get docKey).all fun d =>
        d.views.values.all fun view => !view.isExpired s.now

end AdminModel

/-! ## How the counts are kept -/

namespace Document

/-- The counter is right and cannot overflow, and no view ends in the future. -/
structure Tracked (now : Nat) (d : Document) : Prop where
  counted : d.activeViews.toNat = d.unexpired now
  past : ∀ view ∈ d.views.values, view.endTime ≤ now
  few : d.views.keys.length < 2 ^ 32

/-- A document that is not done with has a view that has not expired. -/
structure Live (now : Nat) (d : Document) : Prop extends d.Tracked now where
  alive : 0 < d.unexpired now
  opened : d.endTime = 0

section

variable {now now' : Nat} {d : Document} {sessionId : Payload} {view : View}

@[simp] theorem takeSnapshot_views : (d.takeSnapshot now).views = d.views := by
  rw [takeSnapshot]
  split <;> rfl

@[simp] theorem takeSnapshot_activeViews : (d.takeSnapshot now).activeViews = d.activeViews := by
  rw [takeSnapshot]
  split <;> rfl

@[simp] theorem takeSnapshot_endTime : (d.takeSnapshot now).endTime = d.endTime := by
  rw [takeSnapshot]
  split <;> rfl

@[simp] theorem takeSnapshot_docKey : (d.takeSnapshot now).docKey = d.docKey := by
  rw [takeSnapshot]
  split <;> rfl

@[simp] theorem takeSnapshot_start : (d.takeSnapshot now).start = d.start := by
  rw [takeSnapshot]
  split <;> rfl

theorem unexpired_le (d : Document) (now : Nat) : d.unexpired now ≤ d.views.keys.length := by
  rw [← OrderedMap.length_values]
  exact List.countP_le_length

theorem Tracked.accounted (h : d.Tracked now) : d.Accounted now := by
  have hle := d.unexpired_le now
  have hfew := h.few
  have hviews : d.viewsCount.toNat = d.views.keys.length := by
    rw [viewsCount, getViews, List.length_insertionSort, ← OrderedMap.length_keys]
    exact UInt64.toNat_ofNat_of_lt' (hfew.trans (by decide))
  have hactive : d.activeViewsCount.toNat = d.unexpired now := by
    rw [activeViewsCount, UInt32.toNat_toUInt64, h.counted]
  refine ⟨h.counted, hviews, ?_⟩
  rw [expiredViewsCount, UInt64.toNat_sub_of_le _ _ (UInt64.le_iff_toNat_le.mpr (by omega))]
  omega

theorem Tracked.takeSnapshot (h : d.Tracked now) : (d.takeSnapshot now').Tracked now := by
  constructor
  · simpa [unexpired] using h.counted
  · simpa using h.past
  · simpa using h.few

/-- As time goes by, the views that have expired stay expired. -/
theorem unexpired_of_le (hpast : ∀ view ∈ d.views.values, view.endTime ≤ now) (hle : now ≤ now') :
    d.unexpired now' = d.unexpired now := by
  apply List.countP_congr
  intro view hmem
  have hend := hpast view hmem
  have hend' := hend.trans hle
  simp [View.isExpired, hend, hend']

theorem Live.of_le (h : d.Live now) (hle : now ≤ now') : d.Live now' := by
  have hsame := unexpired_of_le h.past hle
  refine ⟨⟨?_, fun view hmem => (h.past view hmem).trans hle, h.few⟩, ?_, h.opened⟩
  · rw [hsame]
    exact h.counted
  · rw [hsame]
    exact h.alive

/-! ### A view more -/

theorem tracked_addView (h : d.Tracked now) (hfew : d.views.keys.length + 1 < 2 ^ 32) :
    (d.addView sessionId).Tracked now := by
  rw [addView]
  split
  case isTrue => exact h
  case isFalse hnew =>
    have hvalues := OrderedMap.values_set_of_not_has (a := View.new) hnew
    constructor
    · have hle := d.unexpired_le now
      have hcounted := h.counted
      have hnext : (d.activeViews + 1).toNat = d.activeViews.toNat + 1 := by
        rw [UInt32.toNat_add]
        exact Nat.mod_eq_of_lt (by simp; omega)
      rw [hnext, hcounted]
      simp [unexpired, hvalues, View.isExpired_new]
    · intro view hmem
      rw [hvalues] at hmem
      rcases List.mem_append.mp hmem with hold | hlast
      · exact h.past view hold
      · cases List.mem_singleton.mp hlast
        exact Nat.zero_le now
    · rw [OrderedMap.keys_set_of_not_has hnew, List.length_append, List.length_singleton]
      exact hfew

theorem unexpired_addView_of_new (hnew : d.views.has sessionId = false) :
    (d.addView sessionId).unexpired now = d.unexpired now + 1 := by
  have hnot : ¬ d.views.has sessionId = true := by simp [hnew]
  rw [addView, if_neg hnot]
  simp [unexpired, OrderedMap.values_set_of_not_has hnot, View.isExpired_new]

theorem live_addView (h : d.Live now) (hfew : d.views.keys.length + 1 < 2 ^ 32) :
    ((d.takeSnapshot now).addView sessionId).Live now := by
  refine ⟨tracked_addView h.toTracked.takeSnapshot (by simpa using hfew), ?_, ?_⟩
  · cases hhas : d.views.has sessionId with
    | true => simpa [addView, hhas, unexpired] using h.alive
    | false =>
        rw [unexpired_addView_of_new (by simpa using hhas)]
        exact Nat.succ_pos _
  · rw [addView]
    split <;> simpa using h.opened

theorem live_new (docKey : Payload) (pid : Int) (filename sessionId : Payload) (now : Nat) :
    (((new docKey pid filename now).takeSnapshot now).addView sessionId).Live now := by
  have hempty : (new docKey pid filename now).Tracked now := by
    refine ⟨rfl, ?_, Nat.two_pow_pos 32⟩
    intro view hmem
    cases hmem
  refine ⟨tracked_addView hempty.takeSnapshot ?_, ?_, ?_⟩
  · simp [new, OrderedMap.empty, OrderedMap.keys]
  · rw [unexpired_addView_of_new (by rw [takeSnapshot_views]; rfl)]
    exact Nat.succ_pos _
  · rw [addView]
    split <;> simp [new]

/-! ### A view less -/

theorem expireView_of_none (h : d.views.get sessionId = none) :
    d.expireView now sessionId = d.takeSnapshot now := by
  rw [expireView, h]

section

variable (hview : d.views.get sessionId = some view)

include hview

theorem views_expireView :
    (d.expireView now sessionId).views = d.views.set sessionId (view.expire now) := by
  rw [expireView, hview, takeSnapshot_views]

theorem activeViews_expireView :
    (d.expireView now sessionId).activeViews = d.activeViews - 1 := by
  rw [expireView, hview, takeSnapshot_activeViews]

theorem endTime_expireView (hmore : d.activeViews - 1 ≠ 0) :
    (d.expireView now sessionId).endTime = d.endTime := by
  rw [expireView, hview, takeSnapshot_endTime, if_neg hmore]

theorem keys_expireView : (d.expireView now sessionId).views.keys = d.views.keys := by
  rw [views_expireView hview]
  exact OrderedMap.keys_set_of_has (by simp [OrderedMap.has, hview])

theorem unexpired_expireView (hnow : 0 < now) (hactive : view.isExpired now = false) :
    (d.expireView now sessionId).unexpired now + 1 = d.unexpired now := by
  have hcount := OrderedMap.countP_values_set (a := view.expire now)
    (fun view => !view.isExpired now) hview
  have hnew := view.isExpired_expire hnow
  rw [hactive, hnew] at hcount
  rw [unexpired, unexpired, views_expireView hview]
  exact hcount

theorem tracked_expireView (h : d.Tracked now) (hnow : 0 < now)
    (hactive : view.isExpired now = false) : (d.expireView now sessionId).Tracked now := by
  have hless := unexpired_expireView hview hnow hactive
  have hcounted := h.counted
  constructor
  · rw [activeViews_expireView hview, UInt32.toNat_sub_of_le]
    · simp; omega
    · rw [UInt32.le_iff_toNat_le]
      simp; omega
  · intro view' hmem
    rw [views_expireView hview] at hmem
    rcases OrderedMap.mem_values_set hmem with hnew | hold
    · rw [hnew]
      exact Nat.le_refl now
    · exact h.past view' hold
  · rw [keys_expireView hview]
    exact h.few

theorem continues_expireView : d.Continues (d.expireView now sessionId) := by
  refine ⟨?_, ?_, keys_expireView hview⟩
  · rw [expireView, hview, takeSnapshot_docKey]
  · rw [expireView, hview, takeSnapshot_start]

end

theorem Continues.trans {d₁ d₂ d₃ : Document} (h : d₁.Continues d₂) (h' : d₂.Continues d₃) :
    d₁.Continues d₃ :=
  ⟨h'.docKey.trans h.docKey, h'.start.trans h.start, h'.views.trans h.views⟩

/-- Views that have not expired, one after the other, are counted down one by one. -/
theorem expireViews {sessionIds : List Payload} (h : d.Tracked now) (hnow : 0 < now)
    (hnodup : sessionIds.Nodup)
    (hviews : ∀ sessionId ∈ sessionIds, ∃ view,
      d.views.get sessionId = some view ∧ view.isExpired now = false) :
    let after := sessionIds.foldl (fun d sessionId => d.expireView now sessionId) d
    after.Tracked now ∧ d.Continues after ∧
      after.unexpired now + sessionIds.length = d.unexpired now := by
  induction sessionIds generalizing d with
  | nil => exact ⟨h, ⟨rfl, rfl, rfl⟩, rfl⟩
  | cons sessionId sessionIds ih =>
      rw [List.nodup_cons] at hnodup
      rcases hviews sessionId List.mem_cons_self with ⟨view, hview, hactive⟩
      have hless := unexpired_expireView hview hnow hactive
      have hrest := ih (tracked_expireView hview h hnow hactive) hnodup.2 fun other hmem => by
        have hne : sessionId ≠ other := fun heq => hnodup.1 (heq ▸ hmem)
        rw [views_expireView hview, OrderedMap.get_set_ne hne]
        exact hviews other (List.mem_cons_of_mem _ hmem)
      refine ⟨hrest.1, (continues_expireView hview).trans hrest.2.1, ?_⟩
      rw [List.length_cons, ← hless, ← hrest.2.2]
      rfl

/-- All views of a document, in their order. -/
theorem expireViews_getViews (h : d.Tracked now) (hnow : 0 < now)
    (hactive : ∀ view ∈ d.views.values, view.isExpired now = false) :
    let after := d.getViews.foldl (fun d view => d.expireView now view.1) d
    after.Tracked now ∧ d.Continues after ∧ after.unexpired now = 0 := by
  have hperm := List.perm_insertionSort (fun a b : Payload × View => a.1 ≤ b.1) d.views.entries
  have hkeys : (d.getViews.map Prod.fst).Perm d.views.keys := hperm.map Prod.fst
  have hall : d.unexpired now = d.views.keys.length := by
    rw [← OrderedMap.length_values, unexpired, List.countP_eq_length]
    intro view hmem
    rw [hactive view hmem]
    rfl
  have hrest := expireViews h hnow (hkeys.nodup_iff.mpr d.views.nodup) fun sessionId hmem => by
    have hhas := OrderedMap.has_iff.mpr (hkeys.mem_iff.mp hmem)
    rcases Option.isSome_iff_exists.mp hhas with ⟨view, hview⟩
    exact ⟨view, hview, hactive view (OrderedMap.mem_values_of_get hview)⟩
  rw [List.foldl_map, hkeys.length_eq] at hrest
  refine ⟨hrest.1, hrest.2.1, ?_⟩
  have hless := hrest.2.2
  rw [hall] at hless
  exact Nat.add_eq_right.mp hless

end

end Document

namespace AdminModel

/-- All documents that are there are live. -/
def Inv (s : AdminModel) : Prop := ∀ docKey d, s.documents.get docKey = some d → d.Live s.now

section

variable {s : AdminModel} {e : Event} {docKey sessionId : Payload} {d : Document}

theorem inv_new (now : Nat) : (new now).Inv := by
  intro docKey d hget
  cases hget

theorem Inv.set (h : s.Inv) (hd : d.Live s.now) :
    Inv { s with documents := s.documents.set docKey d } := by
  intro key d' hget
  rw [OrderedMap.get_set] at hget
  split_ifs at hget
  · cases hget
    exact hd
  · exact h key d' hget

theorem Inv.doRemove (h : s.Inv) : (s.doRemove docKey d).Inv := by
  intro key d' hget
  have hold : s.documents.get key = some d' := by
    simp only [AdminModel.doRemove, OrderedMap.get_delete] at hget
    split_ifs at hget
    exact hget
  exact h key d' hold

theorem kept_set : s.Kept { s with documents := s.documents.set docKey d } :=
  ⟨fun _ hhas => OrderedMap.has_set_of_has hhas, rfl, rfl⟩

theorem kept_refl : s.Kept s := ⟨fun _ hhas => hhas, rfl, rfl⟩

/-- The document leaves that is to, and only that. -/
structure Leaves (s : AdminModel) (e : Event) : Prop where
  moved : ∀ docKey, s.leaving e = some docKey → s.Moved docKey (s.next e)
  kept : s.leaving e = none → s.Kept (s.next e)
  inv : (s.next e).Inv

theorem Leaves.of_kept (hnone : s.leaving e = none) (hkept : s.Kept (s.next e))
    (hinv : (s.next e).Inv) : s.Leaves e := by
  refine ⟨?_, fun _ => hkept, hinv⟩
  intro docKey hleaving
  rw [hnone] at hleaving
  cases hleaving

theorem Leaves.of_moved (docKey : Payload) (hleaving : s.leaving e = some docKey)
    (hmoved : s.Moved docKey (s.next e)) (hinv : (s.next e).Inv) : s.Leaves e := by
  refine ⟨?_, ?_, hinv⟩
  · intro docKey' hleaving'
    rw [hleaving] at hleaving'
    cases hleaving'
    exact hmoved
  · intro hnone
    rw [hleaving] at hnone
    cases hnone

theorem Leaves.of_same (hinv : s.Inv) (hnone : s.leaving e = none) (hnext : s.next e = s) :
    s.Leaves e := by
  apply Leaves.of_kept hnone
  · rw [hnext]
    exact kept_refl
  · rwa [hnext]

theorem Leaves.of_set (hinv : s.Inv) (hd : d.Live s.now) (hnone : s.leaving e = none)
    (hnext : s.next e = { s with documents := s.documents.set docKey d }) : s.Leaves e := by
  apply Leaves.of_kept hnone
  · rw [hnext]
    exact kept_set
  · rw [hnext]
    exact hinv.set hd

theorem leaves_clock (hinv : s.Inv) {now : Nat} (hle : s.now ≤ now) : s.Leaves (.clock now) :=
  .of_kept rfl kept_refl fun docKey d hget => (hinv docKey d hget).of_le hle

theorem leaves_addDocument (hinv : s.Inv) {pid : Int} {filename : Payload}
    (honce : s.once (.addDocument docKey pid filename sessionId) = true) :
    s.Leaves (.addDocument docKey pid filename sessionId) := by
  refine .of_set hinv ?_ rfl rfl
  cases hget : s.documents.get docKey with
  | none => exact Document.live_new docKey pid filename sessionId s.now
  | some d =>
      simp only [once, hget, Option.all_some, decide_eq_true_eq] at honce
      exact Document.live_addView (hinv docKey d hget) honce

theorem leaves_removeView (hinv : s.Inv) (honce : s.once (.removeView docKey sessionId) = true) :
    s.Leaves (.removeView docKey sessionId) := by
  cases hget : s.documents.get docKey with
  | none =>
      exact .of_same hinv (by simp [leaving, hget]) (by simp [next, removeView, hget])
  | some d =>
      have hd := hinv docKey d hget
      have hopen : d.isExpired s.now = false := by simp [Document.isExpired, hd.opened]
      have hcounted := hd.counted
      have halive := hd.alive
      cases hview : d.views.get sessionId with
      | none =>
          have hactive : d.activeViews ≠ 0 := by
            intro hzero
            rw [hzero, UInt32.toNat_zero] at hcounted
            omega
          have hnext : s.next (.removeView docKey sessionId) =
              { s with documents := s.documents.set docKey (d.takeSnapshot s.now) } := by
            simp [next, removeView, hget, hopen, Document.expireView_of_none hview, hactive]
          have hlive : (d.takeSnapshot s.now).Live s.now :=
            ⟨hd.toTracked.takeSnapshot, by simpa [Document.unexpired] using halive,
              by simpa using hd.opened⟩
          exact .of_set hinv hlive (by simp [leaving, hget, Document.isLast, hview]) hnext
      | some view =>
          simp only [once, hget, hview, Option.all_some, Bool.and_eq_true, decide_eq_true_eq,
            Bool.not_eq_true'] at honce
          have hafter := Document.tracked_expireView hview hd.toTracked honce.1 honce.2
          have hless := Document.unexpired_expireView hview honce.1 honce.2
          have hleft := hafter.counted
          by_cases hlast : (d.expireView s.now sessionId).activeViews = 0
          · rw [hlast, UInt32.toNat_zero] at hleft
            have hnext : s.next (.removeView docKey sessionId) =
                s.doRemove docKey (d.expireView s.now sessionId) := by
              simp [next, removeView, hget, hopen, hlast]
            have hone : d.unexpired s.now = 1 := by omega
            refine Leaves.of_moved docKey ?_ ?_ ?_
            · simp [leaving, hget, Document.isLast, hview, honce.2, hone]
            · exact ⟨d, _, hget, Document.continues_expireView hview, hleft.symm,
                hafter.accounted, hnext⟩
            · rw [hnext]
              exact hinv.doRemove
          · have hnext : s.next (.removeView docKey sessionId) =
                { s with documents := s.documents.set docKey (d.expireView s.now sessionId) } := by
              simp [next, removeView, hget, hopen, hlast]
            have hpos : 0 < (d.expireView s.now sessionId).unexpired s.now := by
              rw [← hleft, Nat.pos_iff_ne_zero]
              exact fun hzero => hlast (UInt32.toNat_inj.mp hzero)
            have hmore : d.unexpired s.now ≠ 1 := by omega
            refine .of_set hinv ⟨hafter, hpos, ?_⟩ ?_ hnext
            · rw [Document.activeViews_expireView hview] at hlast
              rw [Document.endTime_expireView hview hlast]
              exact hd.opened
            · simp [leaving, hget, Document.isLast, hmore]

theorem leaves_removeDocument (hinv : s.Inv) (honce : s.once (.removeDocument docKey) = true) :
    s.Leaves (.removeDocument docKey) := by
  cases hget : s.documents.get docKey with
  | none =>
      exact .of_same hinv (by simp [leaving, OrderedMap.has, hget])
        (by simp [next, removeDocument, hget])
  | some d =>
      have hnext : s.next (.removeDocument docKey) = s.doRemove docKey
          (d.getViews.foldl (fun d view => d.expireView s.now view.1) d) := by
        simp [next, removeDocument, hget]
      simp only [once, hget, Option.all_some, Bool.and_eq_true, decide_eq_true_eq,
        List.all_eq_true, Bool.not_eq_true'] at honce
      rcases Document.expireViews_getViews (hinv docKey d hget).toTracked honce.1 honce.2 with
        ⟨hafter, hcontinues, hnone⟩
      refine Leaves.of_moved docKey ?_ ?_ ?_
      · simp [leaving, OrderedMap.has, hget]
      · exact ⟨d, _, hget, hcontinues, hnone, hafter.accounted, hnext⟩
      · rw [hnext]
        exact hinv.doRemove

/-- What one call does to the documents and to the histories. -/
theorem leaves_next (hinv : s.Inv) (honce : s.once e = true) : s.Leaves e := by
  cases e with
  | clock now => exact leaves_clock hinv (by simpa [once] using honce)
  | addDocument docKey pid filename sessionId => exact leaves_addDocument hinv honce
  | removeView docKey sessionId => exact leaves_removeView hinv honce
  | removeDocument docKey => exact leaves_removeDocument hinv honce

theorem Leaves.accounts (h : s.Leaves e) : s.Accounts e (s.next e) :=
  ⟨fun docKey d hget => (h.inv docKey d hget).accounted, h.moved, h.kept⟩

end

/-- In every run in which no view goes twice, the views are counted right and every document that
goes is moved to the histories once. -/
theorem allSteps_accounts (now : Nat) (es : List Event) :
    AllSteps (stepIf step fun s e => s.once e) Accounts (new now) es := by
  refine allSteps_of_invariant _ (I := Inv) ?_ (inv_new now) es
  intro s e s' hinv hstep
  obtain ⟨honce, hnext⟩ := (stepIf_eq_some step).mp hstep
  cases hnext
  have hleaves := leaves_next hinv honce
  exact ⟨hleaves.accounts, hleaves.inv⟩

/-- Two sessions, the first of which is removed twice. -/
def removedTwice : List Event :=
  [.addDocument ['d'] 7 ['f'] ['1'], .addDocument ['d'] 7 ['f'] ['2'], .removeView ['d'] ['1'],
    .removeView ['d'] ['1']]

/-- The document goes although its second view has not expired. -/
theorem not_accounts_removedTwice : ¬ AllSteps step Accounts (new 1) removedTwice := by
  intro h
  have hlast := ((((h _ rfl).2 _ rfl).2 _ rfl).2 _ rfl).1
  have hthere := (hlast.kept (by decide)).1 ['d'] (by decide)
  revert hthere
  decide

end AdminModel

end CoolOnline.Admin
