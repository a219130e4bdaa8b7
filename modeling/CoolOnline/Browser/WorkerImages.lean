import CoolOnline.Browser.TileFlow

/-! # Images that the workers build on

A worker drops the images of the tiles that a message does not list, so a delta finds the image that
it continues only if every message until then lists its tile. The invariant follows each tile through
the messages that its worker has not handled yet and the deltas that are not posted yet.
-/

namespace CoolOnline.Browser

variable {ι : Type}

/-- A slice that was handed over: all of a keyframe and its deltas, or the end of them. -/
structure PendingDelta.Ok (x : PendingDelta) : Prop where
  ne_nil : x.rawDelta ≠ []
  isKeyframe_iff : x.isKeyframe = true ↔ x.base = []
  contiguous : Contiguous (x.base ++ x.rawDelta)

/-- A delta found the image of the keyframe and the deltas right before it. -/
def Handled.FindsBase (codec : Codec ι) (h : Handled ι) : Prop :=
  h.delta.isKeyframe = false →
    h.delta.base ≠ [] ∧ Contiguous (h.delta.base ++ h.delta.rawDelta) ∧
      h.found = codec.imageOf h.delta.base

namespace TileWorker

/-- What was posted to a worker and not answered on the main thread. -/
def Outstanding (w : TileWorker ι) (x : PendingDelta) : Prop :=
  (∃ message ∈ w.inbox, x ∈ message.deltas) ∨ ∃ deltas ∈ w.replies, ∃ bitmap, (x, bitmap) ∈ deltas

/-- The next message drops no image whose reply was not processed yet. -/
def KeepsAnswered (w : TileWorker ι) : Prop :=
  ∀ message inbox, w.inbox = message :: inbox → ∀ deltas ∈ w.replies, ∀ x ∈ deltas,
    x.1.coords.key ∈ message.cachedTiles

end TileWorker

/-! ## Images along the messages -/

/-- The deltas of a tile. -/
def deltasOf (c : TileCoordData) (deltas : List PendingDelta) : List PendingDelta :=
  deltas.filter fun x => x.coords = c

section Chain

variable (codec : Codec ι)

/-- Each delta continues the image that there is when it comes. -/
def Chain : Option ι → List PendingDelta → Prop
  | _, [] => True
  | image, x :: deltas =>
      (x.isKeyframe = false → image = codec.imageOf x.base) ∧
        Chain (codec.decompress image x) deltas

def imageAfter (image : Option ι) (deltas : List PendingDelta) : Option ι :=
  deltas.foldl codec.decompress image

/-- The image of a tile that a message leaves, before its deltas. -/
def kept (c : TileCoordData) (message : WorkerMessage) (image : Option ι) : Option ι :=
  if c.key ∈ message.cachedTiles then image else none

def InboxChain (c : TileCoordData) : Option ι → List WorkerMessage → Prop
  | _, [] => True
  | image, message :: inbox =>
      Chain codec (kept c message image) (deltasOf c message.deltas) ∧
        InboxChain c (imageAfter codec (kept c message image) (deltasOf c message.deltas)) inbox

/-- The image of a tile once all messages are handled. -/
def imageAfterInbox (c : TileCoordData) (image : Option ι) (inbox : List WorkerMessage) : Option ι :=
  inbox.foldl (fun image message =>
    imageAfter codec (kept c message image) (deltasOf c message.deltas)) image

variable {codec} {c c' : TileCoordData} {image image' : Option ι} {x : PendingDelta}
  {deltas deltas' : List PendingDelta} {message : WorkerMessage} {inbox : List WorkerMessage}

@[simp] theorem deltasOf_nil : deltasOf c [] = [] := rfl

theorem deltasOf_append : deltasOf c (deltas ++ deltas') = deltasOf c deltas ++ deltasOf c deltas' :=
  List.filter_append _ _

@[simp] theorem deltasOf_cons_self : deltasOf x.coords (x :: deltas) = x :: deltasOf x.coords deltas :=
  List.filter_cons_of_pos (by simp)

theorem deltasOf_cons_ne (h : x.coords ≠ c) : deltasOf c (x :: deltas) = deltasOf c deltas :=
  List.filter_cons_of_neg (by simpa using h)

theorem mem_deltasOf : x ∈ deltasOf c deltas ↔ x ∈ deltas ∧ x.coords = c := by
  simp [deltasOf]

theorem deltasOf_bucketOf {n i : Nat} (h : bucket c n = i) :
    deltasOf c (bucketOf deltas n i) = deltasOf c deltas := by
  rw [deltasOf, bucketOf, List.filter_filter, deltasOf]
  apply List.filter_congr
  intro x _
  by_cases hx : x.coords = c
  · simp [hx, h]
  · simp [hx]

@[simp] theorem chain_nil : Chain codec image [] := trivial

theorem chain_append :
    Chain codec image (deltas ++ deltas') ↔
      Chain codec image deltas ∧ Chain codec (imageAfter codec image deltas) deltas' := by
  induction deltas generalizing image with
  | nil => simp [imageAfter]
  | cons x deltas ih =>
      simp only [List.cons_append, Chain, ih, imageAfter, List.foldl_cons, and_assoc]

/-- A keyframe needs no image before it. -/
theorem chain_of_keyframe (codec : Codec ι) (image image' : Option ι) (deltas : List PendingDelta)
    (h : x.isKeyframe = true) :
    (Chain codec image (x :: deltas) ↔ Chain codec image' (x :: deltas)) ∧
      imageAfter codec image (x :: deltas) = imageAfter codec image' (x :: deltas) := by
  have hsame : codec.decompress image x = codec.decompress image' x := by
    simp [Codec.decompress, h]
  simp [Chain, imageAfter, h, hsame]

theorem inboxChain_append :
    InboxChain codec c image (inbox ++ [message]) ↔
      InboxChain codec c image inbox ∧
        Chain codec (kept c message (imageAfterInbox codec c image inbox))
          (deltasOf c message.deltas) := by
  induction inbox generalizing image with
  | nil => simp [InboxChain, imageAfterInbox]
  | cons first inbox ih =>
      simp only [List.cons_append, InboxChain, ih, imageAfterInbox, List.foldl_cons, and_assoc]

theorem imageAfterInbox_append :
    imageAfterInbox codec c image (inbox ++ [message]) =
      imageAfter codec (kept c message (imageAfterInbox codec c image inbox))
        (deltasOf c message.deltas) := by
  simp [imageAfterInbox]

end Chain

/-! ## Handling a message -/

namespace TileWorker

variable {codec : Codec ι} {w : TileWorker ι}

/-- A worker that finds all images handles all deltas. -/
theorem handleDeltas_spec {deltas : List PendingDelta} (hdeltas : ∀ x ∈ deltas, x.Ok)
    (hchain : ∀ c : TileCoordData,
      Chain codec (w.tileImageCache.get c.key) (deltasOf c deltas)) :
    ∃ w' bitmaps, handleDeltas codec deltas w = (w', some bitmaps) ∧
      w'.inbox = w.inbox ∧ w'.replies = w.replies ∧ bitmaps.map Prod.fst = deltas ∧
      (∀ h ∈ w'.handled, h ∈ w.handled ∨ h.FindsBase codec) ∧
      ∀ c : TileCoordData, w'.tileImageCache.get c.key =
        imageAfter codec (w.tileImageCache.get c.key) (deltasOf c deltas) := by
  induction deltas generalizing w with
  | nil => exact ⟨w, [], rfl, rfl, rfl, rfl, fun h hh => .inl hh, fun c => rfl⟩
  | cons x deltas ih =>
      obtain ⟨hx, hrest⟩ := List.forall_mem_cons.mp hdeltas
      have hfound := hchain x.coords
      rw [deltasOf_cons_self] at hfound
      have hdecompress := codec.decompress_eq hx.isKeyframe_iff hfound.1
      obtain ⟨image, himage⟩ := codec.imageOf_isSome
        (List.append_ne_nil_of_right_ne_nil x.base hx.ne_nil)
      rw [himage] at hdecompress
      generalize hw₁ : ({ w with
        handled := ⟨x, w.tileImageCache.get x.coords.key⟩ :: w.handled
        tileImageCache := w.tileImageCache.set x.coords.key image } : TileWorker ι) = w₁
      have hget (c : TileCoordData) : w₁.tileImageCache.get c.key =
          imageAfter codec (w.tileImageCache.get c.key) (deltasOf c [x]) := by
        rw [← hw₁]
        by_cases hc : x.coords = c
        · subst hc
          simp [imageAfter, hdecompress]
        · rw [deltasOf_cons_ne hc, OrderedMap.get_set_ne fun hkey =>
            hc (TileCoordData.key_injective hkey)]
          rfl
      have hsplit (c : TileCoordData) :
          deltasOf c (x :: deltas) = deltasOf c [x] ++ deltasOf c deltas := by
        rw [← deltasOf_append, List.singleton_append]
      have hchain₁ (c : TileCoordData) :
          Chain codec (w₁.tileImageCache.get c.key) (deltasOf c deltas) := by
        have hc := hchain c
        rw [hsplit, chain_append] at hc
        rw [hget]
        exact hc.2
      obtain ⟨w', bitmaps, hhandle, hinbox, hreplies, hbitmaps, hhandled, hcache⟩ := ih hrest hchain₁
      refine ⟨w', (x, image) :: bitmaps, ?_, ?_, ?_, ?_, ?_, ?_⟩
      · simp [handleDeltas, hdecompress, hw₁, hhandle]
      · rw [hinbox, ← hw₁]
      · rw [hreplies, ← hw₁]
      · simp [hbitmaps]
      · intro h hh
        rcases hhandled h hh with hold | hbase
        · rw [← hw₁] at hold
          rcases List.mem_cons.mp hold with rfl | hold
          · right
            intro hdelta
            refine ⟨?_, hx.contiguous, hfound.1 hdelta⟩
            intro hnil
            rw [hx.isKeyframe_iff.mpr hnil] at hdelta
            cases hdelta
          · exact .inl hold
        · exact .inr hbase
      · intro c
        rw [hcache c, hget c, hsplit, imageAfter, imageAfter, imageAfter, List.foldl_append]

end TileWorker

/-! ## The invariant -/

/-- Where deltas are posted, the message of each worker lists the tiles that the worker has not been
answered for and those that it continues. -/
def Flow.listsImages (s : Flow ι) : Bool :=
  (List.range s.workers.length).all fun i =>
    bucketOf s.pendingDeltas s.workers.length i = [] ||
      ((s.workers[i]?).all fun w =>
        (w.inbox.all fun message => message.deltas.all fun x => s.cached x.coords) &&
          w.replies.all fun deltas => deltas.all fun x => s.cached x.1.coords) &&
        (bucketOf s.pendingDeltas s.workers.length i).all fun x =>
          ((deltasOf x.coords s.pendingDeltas).head?.all fun first => first.isKeyframe) ||
            s.cached x.coords

/-- What holds of a worker, by the images of the tiles that it is for. -/
structure WorkerOk (codec : Codec ι) (s : Flow ι) (i : Nat) (w : TileWorker ι) : Prop where
  handled : ∀ h ∈ w.handled, h.FindsBase codec
  outstanding : ∀ x, w.Outstanding x → x.Ok ∧ bucket x.coords s.workers.length = i
  inbox : ∀ c, bucket c s.workers.length = i →
    InboxChain codec c (w.tileImageCache.get c.key) w.inbox
  pending : ∀ c, bucket c s.workers.length = i →
    Chain codec (imageAfterInbox codec c (w.tileImageCache.get c.key) w.inbox)
      (deltasOf c s.pendingDeltas)
  shown : ∀ c t, bucket c s.workers.length = i → s.tiles c = some t →
    continued t.rawDeltas t.lastPendingId ≠ [] →
      imageAfter codec (imageAfterInbox codec c (w.tileImageCache.get c.key) w.inbox)
        (deltasOf c s.pendingDeltas) = codec.imageOf (continued t.rawDeltas t.lastPendingId)
  listed : ∀ c t, bucket c s.workers.length = i → s.tiles c = some t →
    continued t.rawDeltas t.lastPendingId ≠ [] →
      s.cached c = true ∨
        ∃ x, (x ∈ s.pendingDeltas ∨ w.Outstanding x) ∧ x.isKeyframe = true ∧ x.coords = c
  answered : ∀ message ∈ w.inbox, ∀ deltas ∈ w.replies, ∀ x ∈ deltas,
    x.1.coords.key ∈ message.cachedTiles
  later : w.inbox.Pairwise fun message later =>
    ∀ x ∈ message.deltas, x.coords.key ∈ later.cachedTiles

structure ImagesOk (codec : Codec ι) (s : Flow ι) : Prop where
  pending : ∀ x ∈ s.pendingDeltas, x.Ok
  workers : ∀ i w, s.workers[i]? = some w → WorkerOk codec s i w

variable {codec : Codec ι} {s s' : Flow ι} {i : Nat} {w : TileWorker ι}

theorem Flow.listsImages_spec (h : s.listsImages = true) (hw : s.workers[i]? = some w)
    (hdeltas : bucketOf s.pendingDeltas s.workers.length i ≠ []) :
    (∀ x, w.Outstanding x → s.cached x.coords = true) ∧
      ∀ x ∈ bucketOf s.pendingDeltas s.workers.length i, ∀ first,
        (deltasOf x.coords s.pendingDeltas).head? = some first → first.isKeyframe = false →
          s.cached x.coords = true := by
  obtain ⟨hlt, -⟩ := List.getElem?_eq_some_iff.mp hw
  have hall := List.all_eq_true.mp h i (List.mem_range.mpr hlt)
  simp only [hdeltas, decide_false, Bool.false_or, hw, Option.all_some, Bool.and_eq_true,
    List.all_eq_true] at hall
  obtain ⟨⟨hinbox, hreplies⟩, hfirst⟩ := hall
  constructor
  · rintro x (⟨message, hmessage, hx⟩ | ⟨deltas, hreply, bitmap, hx⟩)
    · exact hinbox message hmessage x hx
    · exact hreplies deltas hreply (x, bitmap) hx
  · intro x hx first hhead hdelta
    have hor := hfirst x hx
    rw [hhead] at hor
    simpa [hdelta] using hor

/-- The tiles change, but none continues what it did not continue before. -/
theorem ImagesOk.of_tiles (h : ImagesOk codec s) (hpending : s'.pendingDeltas = s.pendingDeltas)
    (hworkers : s'.workers = s.workers) (hcached : ∀ c, s.cached c = true → s'.cached c = true)
    (htiles : ∀ c t', s'.tiles c = some t' → continued t'.rawDeltas t'.lastPendingId ≠ [] →
      ∃ t, s.tiles c = some t ∧ continued t'.rawDeltas t'.lastPendingId =
        continued t.rawDeltas t.lastPendingId) : ImagesOk codec s' := by
  refine ⟨by rw [hpending]; exact h.pending, ?_⟩
  intro i w hw
  rw [hworkers] at hw
  obtain ⟨hhandled, houtstanding, hinbox, hpend, hshown, hlisted, hanswered, hlater⟩ :=
    h.workers i w hw
  refine ⟨hhandled, ?_, ?_, ?_, ?_, ?_, hanswered, hlater⟩
  · rw [hworkers]
    exact houtstanding
  · rw [hworkers]
    exact hinbox
  · rw [hworkers, hpending]
    exact hpend
  · rw [hworkers, hpending]
    intro c t' hc ht' hne
    obtain ⟨t, ht, heq⟩ := htiles c t' ht' hne
    rw [heq] at hne ⊢
    exact hshown c t hc ht hne
  · rw [hworkers, hpending]
    intro c t' hc ht' hne
    obtain ⟨t, ht, heq⟩ := htiles c t' ht' hne
    rw [heq] at hne
    exact (hlisted c t hc ht hne).imp_left (hcached c)

/-- One tile changes, without continuing anything new. -/
theorem ImagesOk.setTile (h : ImagesOk codec s) {c : TileCoordData} {t' : Option FlowTile}
    (ht' : ∀ t₁, t' = some t₁ → continued t₁.rawDeltas t₁.lastPendingId ≠ [] →
      ∃ t, s.tiles c = some t ∧ continued t₁.rawDeltas t₁.lastPendingId =
        continued t.rawDeltas t.lastPendingId) (history : List TileEntry) :
    ImagesOk codec { s.setTile c t' with history := history } := by
  apply h.of_tiles
  · rfl
  · rfl
  · exact fun _ hc => hc
  · intro c' t₁ hget hne
    dsimp only [Flow.setTile] at hget
    rw [Function.update_apply] at hget
    split at hget
    case isTrue heq =>
      subst heq
      exact ht' t₁ hget hne
    case isFalse => exact ⟨t₁, hget, rfl⟩

/-! ### Handing over -/

theorem PendingDelta.Ok.of_slice {l : List RawDelta} {lastPendingId : Nat} {x : PendingDelta}
    (h : Contiguous l) (hx : SliceOf l lastPendingId x) : x.Ok := by
  have hl : l ≠ [] := by
    rintro rfl
    obtain ⟨-, hnil⟩ := List.append_eq_nil_iff.mp hx.current_eq.symm
    exact hx.ne_nil hnil
  refine ⟨hx.ne_nil, hx.isKeyframe_iff, ?_⟩
  rw [← hx.current_eq]
  obtain ⟨keyframe, deltas, hcurrent, hkey, -⟩ := startsAtLastKeyframe_current hl h.keyframe
  refine ⟨h.consecutive.suffix (current_suffix l), ?_⟩
  simp [hcurrent, hkey]

theorem ImagesOk.hand (h : ImagesOk codec s) (hok : s.Ok codec) {c : TileCoordData} {t : FlowTile}
    (ht : s.tiles c = some t) {last : RawDelta} (hlast : t.rawDeltas.getLast? = some last)
    (hneeds : t.lastPendingId ≠ last.id) {wireMessage : Bool} {x : PendingDelta}
    (hx : slice c t.rawDeltas t.lastPendingId wireMessage = some x) (history : List TileEntry) :
    ImagesOk codec
      { s.setTile c (some { t with lastPendingId := x.ids.2 }) with
        pendingDeltas := s.pendingDeltas ++ [x], history := history } := by
  have htile := hok.tiles c t ht
  obtain ⟨hcoords, hslice, hid, -⟩ := htile.hand hlast hneeds hx
  constructor
  · intro y hy
    rcases List.mem_append.mp hy with hy | hy
    · exact h.pending y hy
    · rw [List.mem_singleton.mp hy]
      exact .of_slice htile.contiguous hslice
  · intro i w hw
    obtain ⟨hhandled, houtstanding, hinbox, hpend, hshown, hlisted, hanswered, hlater⟩ :=
      h.workers i w hw
    -- the image that there is when the slice comes
    have hfound (hc : bucket c s.workers.length = i) (hdelta : x.isKeyframe = false) :
        imageAfter codec (imageAfterInbox codec c (w.tileImageCache.get c.key) w.inbox)
          (deltasOf c s.pendingDeltas) = codec.imageOf x.base := by
      rw [hslice.base_eq]
      apply hshown c t hc ht
      rw [← hslice.base_eq]
      intro hnil
      rw [hslice.isKeyframe_iff.mpr hnil] at hdelta
      cases hdelta
    have hself : deltasOf c [x] = [x] := by simp [deltasOf, hcoords]
    refine ⟨hhandled, houtstanding, hinbox, ?_, ?_, ?_, hanswered, hlater⟩
    · intro c' hc'
      dsimp only
      rw [deltasOf_append, chain_append]
      refine ⟨hpend c' hc', ?_⟩
      by_cases hcc : x.coords = c'
      · have hcc : c = c' := hcoords.symm.trans hcc
        subst hcc
        rw [hself]
        exact ⟨hfound hc', trivial⟩
      · rw [deltasOf_cons_ne hcc]
        trivial
    · intro c' t' hc' ht' hne
      dsimp only [Flow.setTile] at ht' ⊢
      rw [Function.update_apply] at ht'
      rw [deltasOf_append, imageAfter, List.foldl_append]
      split at ht'
      case isTrue heq =>
        subst heq
        obtain rfl := Option.some.inj ht'
        dsimp only at hne ⊢
        rw [hid] at hne ⊢
        rw [continued_last htile.contiguous.consecutive hlast hne, hslice.current_eq, hself]
        exact codec.decompress_eq hslice.isKeyframe_iff (hfound hc')
      case isFalse hcc =>
        rw [deltasOf_cons_ne fun heq => hcc (heq.symm.trans hcoords)]
        exact hshown c' t' hc' ht' hne
    · intro c' t' hc' ht' hne
      dsimp only [Flow.setTile] at ht'
      rw [Function.update_apply] at ht'
      have hmore {y : PendingDelta} (hy : y ∈ s.pendingDeltas ∨ w.Outstanding y) :
          y ∈ s.pendingDeltas ++ [x] ∨ w.Outstanding y :=
        hy.imp_left fun hy => List.mem_append_left _ hy
      split at ht'
      case isTrue heq =>
        subst heq
        cases hkey : x.isKeyframe with
        | true => exact .inr ⟨x, .inl (by simp), hkey, hcoords⟩
        | false =>
            have hbase : continued t.rawDeltas t.lastPendingId ≠ [] := by
              rw [← hslice.base_eq]
              intro hnil
              rw [hslice.isKeyframe_iff.mpr hnil] at hkey
              cases hkey
            rcases hlisted c' t hc' ht hbase with hcached | ⟨y, hy, hykey, hyc⟩
            · exact .inl hcached
            · exact .inr ⟨y, hmore hy, hykey, hyc⟩
      case isFalse =>
        rcases hlisted c' t' hc' ht' hne with hcached | ⟨y, hy, hykey, hyc⟩
        · exact .inl hcached
        · exact .inr ⟨y, hmore hy, hykey, hyc⟩

/-! ### Posting -/

theorem mem_bucketOf {deltas : List PendingDelta} {n i : Nat} {x : PendingDelta} :
    x ∈ bucketOf deltas n i ↔ x ∈ deltas ∧ bucket x.coords n = i := by
  simp [bucketOf]

theorem ImagesOk.post (h : ImagesOk codec s) {keys : List Key}
    (hkeys : ∀ c, s.cached c = true ↔ c.key ∈ keys) (hlists : s.listsImages = true) :
    ImagesOk codec { s with
      workers := postDeltas s.workers s.pendingDeltas keys
      pendingDeltas := [] } := by
  have hlength : (postDeltas s.workers s.pendingDeltas keys).length = s.workers.length := by
    simp [postDeltas]
  refine ⟨by simp, ?_⟩
  intro i w' hw'
  simp only [postDeltas, List.getElem?_mapIdx] at hw'
  obtain ⟨w, hw, rfl⟩ := Option.map_eq_some_iff.mp hw'
  have hworker := h.workers i w hw
  by_cases hnone : bucketOf s.pendingDeltas s.workers.length i = []
  · -- nothing is posted to this worker
    rw [TileWorker.postMessage, if_pos hnone]
    have hmine (c : TileCoordData) (hc : bucket c s.workers.length = i) :
        deltasOf c s.pendingDeltas = [] := by
      rw [← deltasOf_bucketOf hc, hnone, deltasOf_nil]
    obtain ⟨hhandled, houtstanding, hinbox, -, hshown, hlisted, hanswered, hlater⟩ := hworker
    constructor
    case handled => exact hhandled
    case outstanding =>
      rw [hlength]
      exact houtstanding
    case inbox =>
      rw [hlength]
      exact hinbox
    case pending => exact fun c _ => trivial
    case shown =>
      rw [hlength]
      intro c t hc ht hne
      have hbefore := hshown c t hc ht hne
      rwa [hmine c hc] at hbefore
    case listed =>
      rw [hlength]
      intro c t hc ht hne
      rcases hlisted c t hc ht hne with hcached | ⟨x, hx | hx, hkey, hxc⟩
      · exact .inl hcached
      · have hmem : x ∈ deltasOf c s.pendingDeltas := mem_deltasOf.mpr ⟨hx, hxc⟩
        rw [hmine c hc] at hmem
        cases hmem
      · exact .inr ⟨x, .inr hx, hkey, hxc⟩
    case answered => exact hanswered
    case later => exact hlater
  · obtain ⟨hwaiting, hfirst⟩ := Flow.listsImages_spec hlists hw hnone
    rw [TileWorker.postMessage, if_neg hnone]
    obtain ⟨hhandled, houtstanding, hinbox, hpend, hshown, hlisted, hanswered, hlater⟩ := hworker
    generalize hmessage : (⟨bucketOf s.pendingDeltas s.workers.length i, keys⟩ : WorkerMessage) =
      message
    have hdeltas : message.deltas = bucketOf s.pendingDeltas s.workers.length i := by rw [← hmessage]
    have hcachedTiles : message.cachedTiles = keys := by rw [← hmessage]
    -- the message drops the image of a tile only where nothing continues it
    have hkept (c : TileCoordData) (image : Option ι) (hcached : s.cached c = true) :
        kept c message image = image := by
      rw [kept, hcachedTiles, if_pos ((hkeys c).mp hcached)]
    have hsame (c : TileCoordData) (hc : bucket c s.workers.length = i) (image : Option ι) :
        deltasOf c s.pendingDeltas ≠ [] →
          (Chain codec image (deltasOf c s.pendingDeltas) →
            Chain codec (kept c message image) (deltasOf c s.pendingDeltas)) ∧
          imageAfter codec (kept c message image) (deltasOf c s.pendingDeltas) =
            imageAfter codec image (deltasOf c s.pendingDeltas) := by
      intro hne
      obtain ⟨first, rest, hcons⟩ := List.exists_cons_of_ne_nil hne
      cases hkey : first.isKeyframe with
      | true =>
          rw [hcons]
          have hboth := chain_of_keyframe codec image (kept c message image) rest hkey
          exact ⟨hboth.1.mp, hboth.2.symm⟩
      | false =>
          have hmem : first ∈ deltasOf c s.pendingDeltas := by simp [hcons]
          obtain ⟨hpending, rfl⟩ := mem_deltasOf.mp hmem
          have hcached := hfirst first (mem_bucketOf.mpr ⟨hpending, hc⟩) first
            (by rw [hcons]; rfl) hkey
          rw [hkept _ image hcached]
          exact ⟨id, rfl⟩
    have hout (x : PendingDelta) :
        ({ w with inbox := w.inbox ++ [message] } : TileWorker ι).Outstanding x ↔
          w.Outstanding x ∨ x ∈ bucketOf s.pendingDeltas s.workers.length i := by
      simp only [TileWorker.Outstanding, List.mem_append, List.mem_singleton, or_and_right,
        exists_or, exists_eq_left, hdeltas]
      rw [or_right_comm]
    constructor
    case handled => exact hhandled
    case outstanding =>
      rw [hlength]
      intro x hx
      rcases (hout x).mp hx with hx | hx
      · exact houtstanding x hx
      · obtain ⟨hpending, hbucket⟩ := mem_bucketOf.mp hx
        exact ⟨h.pending x hpending, hbucket⟩
    case inbox =>
      rw [hlength]
      intro c hc
      apply inboxChain_append.mpr
      rw [hdeltas, deltasOf_bucketOf hc]
      refine ⟨hinbox c hc, ?_⟩
      by_cases hempty : deltasOf c s.pendingDeltas = []
      · rw [hempty]
        trivial
      · exact (hsame c hc _ hempty).1 (hpend c hc)
    case pending => exact fun c _ => trivial
    case shown =>
      rw [hlength]
      intro c t hc ht hne
      have hbefore := hshown c t hc ht hne
      dsimp only
      rw [imageAfterInbox_append, hdeltas, deltasOf_bucketOf hc, deltasOf_nil, imageAfter,
        List.foldl_nil]
      by_cases hempty : deltasOf c s.pendingDeltas = []
      · have hcached : s.cached c = true := by
          rcases hlisted c t hc ht hne with hcached | ⟨x, hx | hx, -, hxc⟩
          · exact hcached
          · have hmem : x ∈ deltasOf c s.pendingDeltas := mem_deltasOf.mpr ⟨hx, hxc⟩
            rw [hempty] at hmem
            cases hmem
          · exact hxc ▸ hwaiting x hx
        rw [hkept c _ hcached]
        exact hbefore
      · rw [(hsame c hc _ hempty).2]
        exact hbefore
    case listed =>
      rw [hlength]
      intro c t hc ht hne
      rcases hlisted c t hc ht hne with hcached | ⟨x, hx | hx, hkey, hxc⟩
      · exact .inl hcached
      · exact .inr ⟨x, .inr ((hout x).mpr (.inr (mem_bucketOf.mpr ⟨hx, hxc ▸ hc⟩))), hkey, hxc⟩
      · exact .inr ⟨x, .inr ((hout x).mpr (.inl hx)), hkey, hxc⟩
    case answered =>
      intro message' hmessage' deltas hreply x hx
      rcases List.mem_append.mp hmessage' with hold | hnew
      · exact hanswered message' hold deltas hreply x hx
      · rw [List.mem_singleton.mp hnew, hcachedTiles]
        exact (hkeys _).mp (hwaiting x.1 (.inr ⟨deltas, hreply, x.2, hx⟩))
    case later =>
      apply List.pairwise_append.mpr
      refine ⟨hlater, List.pairwise_singleton _ _, ?_⟩
      intro message' hold later hnew x hx
      rw [List.mem_singleton.mp hnew, hcachedTiles]
      exact (hkeys _).mp (hwaiting x (.inl ⟨message', hold, hx⟩))

/-! ### Handling and replying -/

theorem ImagesOk.handle (h : ImagesOk codec s) (hw : s.workers[i]? = some w)
    {message : WorkerMessage} {inbox : List WorkerMessage} (hinbox : w.inbox = message :: inbox) :
    ImagesOk codec
      { s with workers := s.workers.set i ({ w with inbox := inbox }.onMessage codec message) } := by
  have hworker := h.workers i w hw
  have hin : message ∈ w.inbox := by simp [hinbox]
  have hentries (x : PendingDelta) (hx : x ∈ message.deltas) :
      x.Ok ∧ bucket x.coords s.workers.length = i :=
    hworker.outstanding x (.inl ⟨message, hin, hx⟩)
  generalize hw₁ : ({ w with
    inbox := inbox
    tileImageCache := w.tileImageCache.filterKeys fun key => key ∈ message.cachedTiles } :
      TileWorker ι) = w₁
  have hget (c : TileCoordData) :
      w₁.tileImageCache.get c.key = kept c message (w.tileImageCache.get c.key) := by
    rw [← hw₁, OrderedMap.get_filterKeys, kept]
    simp
  have hchain (c : TileCoordData) :
      Chain codec (w₁.tileImageCache.get c.key) (deltasOf c message.deltas) := by
    rw [hget]
    by_cases hc : bucket c s.workers.length = i
    · have hall := hworker.inbox c hc
      rw [hinbox] at hall
      exact hall.1
    · have hnone : deltasOf c message.deltas = [] := by
        apply List.filter_eq_nil_iff.mpr
        intro x hx hxc
        exact hc (of_decide_eq_true hxc ▸ (hentries x hx).2)
      rw [hnone]
      trivial
  obtain ⟨w', bitmaps, hhandle, hinbox', hreplies', hbitmaps, hhandled', hcache'⟩ :=
    TileWorker.handleDeltas_spec (fun x hx => (hentries x hx).1) hchain
  have honMessage : ({ w with inbox := inbox } : TileWorker ι).onMessage codec message =
      { w' with replies := w'.replies ++ [bitmaps] } := by
    simp only [TileWorker.onMessage, hw₁, hhandle]
  rw [honMessage]
  refine ⟨h.pending, ?_⟩
  intro j v hv
  have hlength : (s.workers.set i { w' with replies := w'.replies ++ [bitmaps] }).length =
      s.workers.length := List.length_set
  by_cases hij : i = j
  case neg =>
    dsimp only at hv
    rw [List.getElem?_set_ne hij] at hv
    obtain ⟨h₁, h₂, h₃, h₄, h₅, h₆, h₇, h₈⟩ := h.workers j v hv
    refine ⟨h₁, ?_, ?_, ?_, ?_, ?_, h₇, h₈⟩ <;> rw [hlength] <;> assumption
  case pos =>
    subst hij
    obtain ⟨hlt, -⟩ := List.getElem?_eq_some_iff.mp hw
    dsimp only at hv
    rw [List.getElem?_set_self hlt] at hv
    obtain rfl := Option.some.inj hv
    obtain ⟨hhandled, houtstanding, hinboxes, hpend, hshown, hlisted, hanswered, hlater⟩ := hworker
    have hw'inbox : w'.inbox = inbox := by rw [hinbox', ← hw₁]
    have hw'replies : w'.replies = w.replies := by rw [hreplies', ← hw₁]
    have hw'handled : w₁.handled = w.handled := by rw [← hw₁]
    have hafter (c : TileCoordData) :
        imageAfterInbox codec c (w'.tileImageCache.get c.key) w'.inbox =
          imageAfterInbox codec c (w.tileImageCache.get c.key) w.inbox := by
      rw [hw'inbox, hinbox, hcache' c, hget c]
      rfl
    -- what was outstanding still is: handled deltas wait in the reply
    have hout (x : PendingDelta) :
        ({ w' with replies := w'.replies ++ [bitmaps] } : TileWorker ι).Outstanding x ↔
          w.Outstanding x := by
      have hmem : (∃ bitmap, (x, bitmap) ∈ bitmaps) ↔ x ∈ message.deltas := by
        rw [← hbitmaps, List.mem_map]
        constructor
        · rintro ⟨bitmap, hx⟩
          exact ⟨_, hx, rfl⟩
        · rintro ⟨⟨_, bitmap⟩, hx, rfl⟩
          exact ⟨bitmap, hx⟩
      simp only [TileWorker.Outstanding, hw'inbox, hw'replies, hinbox, List.mem_append,
        List.mem_cons, List.not_mem_nil, or_false, or_and_right, exists_or, exists_eq_left, hmem]
      rw [← or_assoc, or_comm, ← or_assoc]
    constructor
    case handled =>
      intro handled hh
      rcases hhandled' handled hh with hold | hbase
      · exact hhandled handled (hw'handled ▸ hold)
      · exact hbase
    case outstanding =>
      rw [hlength]
      exact fun x hx => houtstanding x ((hout x).mp hx)
    case inbox =>
      rw [hlength]
      intro c hc
      have hall := hinboxes c hc
      dsimp only
      rw [hinbox] at hall
      rw [hw'inbox, hcache' c, hget c]
      exact hall.2
    case pending =>
      rw [hlength]
      intro c hc
      dsimp only
      rw [hafter]
      exact hpend c hc
    case shown =>
      rw [hlength]
      intro c t hc ht hne
      dsimp only
      rw [hafter]
      exact hshown c t hc ht hne
    case listed =>
      rw [hlength]
      intro c t hc ht hne
      rcases hlisted c t hc ht hne with hcached | ⟨x, hx, hkey, hxc⟩
      · exact .inl hcached
      · exact .inr ⟨x, hx.imp_right (hout x).mpr, hkey, hxc⟩
    case answered =>
      intro message' hmessage' deltas hreply x hx
      rw [hinbox] at hlater
      have hmessage' : message' ∈ inbox := hw'inbox ▸ hmessage'
      rcases List.mem_append.mp hreply with hold | hnew
      · apply hanswered message' _ deltas (hw'replies ▸ hold) x hx
        rw [hinbox]
        exact List.mem_cons_of_mem _ hmessage'
      · rw [List.mem_singleton.mp hnew] at hx
        have hdelta : x.1 ∈ message.deltas := by
          rw [← hbitmaps]
          exact List.mem_map_of_mem hx
        exact (List.pairwise_cons.mp hlater).1 message' hmessage' x.1 hdelta
    case later =>
      rw [hinbox] at hlater
      dsimp only
      rw [hw'inbox]
      exact (List.pairwise_cons.mp hlater).2

theorem ImagesOk.reply (h : ImagesOk codec s) (hw : s.workers[i]? = some w) {j : Nat}
    {deltas : List (PendingDelta × ι)} (hdeltas : w.replies[j]? = some deltas)
    {cached : TileCoordData → Bool} (hcached : ∀ c, s.cached c = true → cached c = true)
    (hnew : ∀ x ∈ deltas, x.1.isKeyframe = true → (s.tiles x.1.coords).isSome →
      cached x.1.coords = true) :
    ImagesOk codec { s with
      cached := cached
      workers := s.workers.set i { w with replies := w.replies.eraseIdx j } } := by
  refine ⟨h.pending, ?_⟩
  intro k v hv
  have hlength : (s.workers.set i { w with replies := w.replies.eraseIdx j }).length =
      s.workers.length := List.length_set
  by_cases hik : i = k
  case neg =>
    dsimp only at hv
    rw [List.getElem?_set_ne hik] at hv
    obtain ⟨h₁, h₂, h₃, h₄, h₅, h₆, h₇, h₈⟩ := h.workers k v hv
    refine ⟨h₁, ?_, ?_, ?_, ?_, ?_, h₇, h₈⟩ <;> rw [hlength] <;> try assumption
    intro c t hc ht hne
    exact (h₆ c t hc ht hne).imp_left (hcached c)
  case pos =>
    subst hik
    obtain ⟨hlt, -⟩ := List.getElem?_eq_some_iff.mp hw
    dsimp only at hv
    rw [List.getElem?_set_self hlt] at hv
    obtain rfl := Option.some.inj hv
    obtain ⟨hhandled, houtstanding, hinbox, hpend, hshown, hlisted, hanswered, hlater⟩ :=
      h.workers i w hw
    constructor
    case handled => exact hhandled
    case outstanding =>
      rw [hlength]
      rintro x (hx | ⟨deltas', hreply, hx⟩)
      · exact houtstanding x (.inl hx)
      · exact houtstanding x (.inr ⟨deltas', List.mem_of_mem_eraseIdx hreply, hx⟩)
    case inbox =>
      rw [hlength]
      exact hinbox
    case pending =>
      rw [hlength]
      exact hpend
    case shown =>
      rw [hlength]
      exact hshown
    case listed =>
      rw [hlength]
      intro c t hc ht hne
      rcases hlisted c t hc ht hne with hold | ⟨x, hx | hx | ⟨deltas', hreply, bitmap, hx⟩, hkey, hxc⟩
      · exact .inl (hcached c hold)
      · exact .inr ⟨x, .inl hx, hkey, hxc⟩
      · exact .inr ⟨x, .inr (.inl hx), hkey, hxc⟩
      · obtain ⟨k, hk⟩ := List.mem_iff_getElem?.mp hreply
        by_cases hkj : k = j
        · subst hkj
          obtain rfl : deltas = deltas' := Option.some.inj (hdeltas.symm.trans hk)
          left
          rw [← hxc]
          apply hnew (x, bitmap) hx hkey
          rw [hxc]
          dsimp only at ht
          simp [ht]
        · refine .inr ⟨x, .inr (.inr ⟨deltas', ?_, bitmap, hx⟩), hkey, hxc⟩
          exact List.mem_eraseIdx_iff_getElem?.mpr ⟨k, hkj, hk⟩
    case answered =>
      intro message hmessage deltas' hreply x hx
      exact hanswered message hmessage deltas' (List.mem_of_mem_eraseIdx hreply) x hx
    case later => exact hlater

/-! ### All changes -/

theorem ImagesOk.of_no_workers (h : s.workers = []) (hpending : ∀ x ∈ s.pendingDeltas, x.Ok) :
    ImagesOk codec s :=
  ⟨hpending, fun i w hw => by simp [h] at hw⟩

theorem ImagesOk.step (h : ImagesOk codec s) (hok : s.Ok codec)
    (hstep : Flow.Step codec (fun s => s.listsImages = true) s s') : ImagesOk codec s' := by
  cases hstep with
  | cache cached hcached => exact h.of_tiles rfl rfl hcached fun c t ht _ => ⟨t, ht, rfl⟩
  | create c hc =>
      refine h.setTile (fun t₁ ht₁ hne => ?_) s.history
      obtain rfl := Option.some.inj ht₁
      exact absurd rfl hne
  | remove c =>
      refine h.setTile (fun t₁ ht₁ _ => ?_) s.history
      cases ht₁
  | reclaim c t ht =>
      refine h.setTile (fun t₁ ht₁ hne => ?_) s.history
      obtain rfl := Option.some.inj ht₁
      exact absurd continued_zero hne
  | clear c t ht =>
      refine h.setTile (fun t₁ ht₁ hne => ?_) s.history
      obtain rfl := Option.some.inj ht₁
      exact absurd rfl hne
  | trim c t ht =>
      refine h.setTile (fun t₁ ht₁ hne => ?_) s.history
      obtain rfl := Option.some.inj ht₁
      refine ⟨t, ht, ?_⟩
      by_cases hl : t.rawDeltas = []
      · rw [hl, current_nil]
      · exact continued_of_startsAtLastKeyframe
          (startsAtLastKeyframe_current hl (hok.tiles c t ht).contiguous.keyframe)
  | receive c t ht img himg =>
      refine h.setTile (fun t₁ ht₁ hne => ?_) _
      obtain rfl := Option.some.inj ht₁
      have hlt := Nat.lt_succ_of_le (hok.tiles c t ht).pending
      cases hkey : img.isKeyframe with
      | true =>
          dsimp only at hne
          rw [continued_append_keyframe hkey hlt] at hne
          exact absurd rfl hne
      | false =>
          have hl : t.rawDeltas ≠ [] := by simpa [hkey] using himg
          exact ⟨t, ht, continued_append_delta hl rfl hlt⟩
  | refuse c t ht img himg hnone =>
      exact h.of_tiles rfl rfl (fun _ hc => hc) fun c t ht _ => ⟨t, ht, rfl⟩
  | hand c t ht last hlast hneeds wireMessage x hx => exact h.hand hok ht hlast hneeds hx _
  | post keys hkeys hC => exact h.post hkeys hC
  | flush hnone => exact .of_no_workers hnone (by simp)
  | disable => exact .of_no_workers rfl (by simp)
  | handle i w hw message inbox hinbox => exact h.handle hw hinbox
  | reply i w hw j deltas hdeltas cached hcached hnew => exact h.reply hw hdeltas hcached hnew

theorem ImagesOk.steps (h : ImagesOk codec s) (hok : s.Ok codec)
    (hsteps : Relation.ReflTransGen (Flow.Step codec fun s => s.listsImages = true) s s') :
    ImagesOk codec s' := by
  have hboth : s'.Ok codec ∧ ImagesOk codec s' := by
    induction hsteps with
    | refl => exact ⟨hok, h⟩
    | tail _ hlast ih => exact ⟨ih.1.step hlast, ih.2.step ih.1 hlast⟩
  exact hboth.2

end CoolOnline.Browser
