import CoolOnline.Common.Protocol
import CoolOnline.Library.Interning
import Mathlib.Data.List.Sort
import Mathlib.Data.Int.Interval

/-! # Canonical view ids

`SessionMap` of `common/Session.hpp` with `invalidateCanonicalId`, `getViewProps` and the choice of a
session in `renderTiles` of `kit/Kit.cpp`: views that look the same get the same id, under which their
tiles are rendered and cached.
-/

namespace CoolOnline.CanonicalIds

open Interning

/-- What a session holds of its view; the canonical id is an `int`. -/
structure ChildSession where
  watermarkText : Payload
  viewRenderState : Payload
  viewId : Int
  canonicalViewId : Int
deriving DecidableEq

namespace CanonicalViewId

def Invalid : Int := -1

def None : Int := 0

end CanonicalViewId

def ChildSession.new : ChildSession := ⟨[], [], -1, CanonicalViewId.Invalid⟩

/-- Generate a unique key for this set of view properties. -/
def createCanonicalId (canonicalIds : OrderedMap Payload Int) (viewProps : Payload) :
    Int × OrderedMap Payload Int :=
  if viewProps = [] then (CanonicalViewId.None, canonicalIds)
  else
    match canonicalIds.get viewProps with
    | some id => (id, canonicalIds)
    | none =>
        let id := toInt32 (canonicalIds.keys.length + 1000)
        (id, canonicalIds.set viewProps id)

/-- What a view looks like. -/
@[ext] structure ViewProps where
  watermarkText : Payload
  viewRenderState : Payload
deriving DecidableEq

def ChildSession.props (session : ChildSession) : ViewProps :=
  ⟨session.watermarkText, session.viewRenderState⟩

/-- `getViewProps`. -/
def ViewProps.text (p : ViewProps) : Payload := p.watermarkText ++ '|' :: p.viewRenderState

/-- The sessions of a document by their ids, and the ids created. -/
structure Document where
  sessions : OrderedMap Payload ChildSession
  canonicalIds : OrderedMap Payload Int

namespace Document

/-- The first session that matches the id, in the order of the map. -/
def findByCanonicalId (doc : Document) (id : Int) : Option ChildSession :=
  ((doc.sessions.entries.insertionSort fun entry other => entry.1 ≤ other.1).find? fun entry =>
    entry.2.canonicalViewId = id).map Prod.snd

/-- The message of a changed id. -/
def canonicalIdChange (session : ChildSession) : Payload :=
  let stateName :=
    if session.viewRenderState ≠ [] then session.viewRenderState else "Empty".toList
  "canonicalidchange: viewid=".toList ++ Text.decimal session.viewId ++
    " canonicalid=".toList ++ Text.decimal session.canonicalViewId ++
    " viewrenderedstate=".toList ++ stateName

/-- The document then, and what the session is sent. -/
def invalidateCanonicalId (doc : Document) (sessionId : Payload) : Document × Option Payload :=
  match doc.sessions.get sessionId with
  | none => (doc, none)
  | some session =>
      let created := createCanonicalId doc.canonicalIds session.props.text
      if created.1 = session.canonicalViewId then ({ doc with canonicalIds := created.2 }, none)
      else
        let session := { session with canonicalViewId := created.1 }
        ({ doc with sessions := doc.sessions.set sessionId session, canonicalIds := created.2 },
          some (canonicalIdChange session))

end Document

/-- What happens to the sessions. The watermark text comes with the options of loading, the state from
the core; a call sees what they are then. -/
inductive Event
  | createSession (sessionId : Payload)
  | removeSession (sessionId : Payload)
  | setViewId (sessionId : Payload) (viewId : Int)
  | setWatermarkText (sessionId watermarkText : Payload)
  | setViewRenderState (sessionId state : Payload)
  | invalidateCanonicalId (sessionId : Payload)
deriving DecidableEq

def Document.modify (doc : Document) (sessionId : Payload) (f : ChildSession → ChildSession) :
    Document :=
  { doc with sessions := doc.sessions.modify sessionId f }

/-- A session that exists is not created again. -/
def Document.createSession (doc : Document) (sessionId : Payload) : Document :=
  if doc.sessions.has sessionId then doc
  else { doc with sessions := doc.sessions.set sessionId ChildSession.new }

def Document.step (doc : Document) : Event → Document
  | .createSession sessionId => doc.createSession sessionId
  | .removeSession sessionId => { doc with sessions := doc.sessions.delete sessionId }
  | .setViewId sessionId viewId =>
      doc.modify sessionId fun session => { session with viewId := viewId }
  | .setWatermarkText sessionId text =>
      doc.modify sessionId fun session => { session with watermarkText := text }
  | .setViewRenderState sessionId state =>
      doc.modify sessionId fun session => { session with viewRenderState := state }
  | .invalidateCanonicalId sessionId => (doc.invalidateCanonicalId sessionId).1

/-- A document, what the latest call for each session has seen, and which ids have been given to what,
newest first. -/
structure Observed where
  doc : Document
  seen : Payload → Option ViewProps
  given : List (ViewProps × Int)

namespace Observed

def start : Observed := ⟨⟨.empty, .empty⟩, fun _ => none, []⟩

/-- A session that has been removed has seen nothing. -/
def step (o : Observed) (e : Event) : Observed :=
  let doc := o.doc.step e
  match e with
  | .removeSession sessionId => { o with doc := doc, seen := Function.update o.seen sessionId none }
  | .invalidateCanonicalId sessionId =>
      match o.doc.sessions.get sessionId, doc.sessions.get sessionId with
      | some before, some after =>
          ⟨doc, Function.update o.seen sessionId (some before.props),
            (before.props, after.canonicalViewId) :: o.given⟩
      | _, _ => { o with doc := doc }
  | _ => { o with doc := doc }

def run (events : List Event) : Observed := events.foldl step start

/-- What all calls have seen. -/
def allSeen (o : Observed) : List ViewProps := o.given.map Prod.fst

end Observed

/-! ## What a call does -/

/-- The id of the view properties that come after `n` others. -/
def nthId (n : Nat) : Int := toInt32 (n + 1000)

theorem ViewProps.text_ne_nil (p : ViewProps) : p.text ≠ [] := by
  simp [text]

theorem createCanonicalId_eq (canonicalIds : OrderedMap Payload Int) (p : ViewProps) :
    createCanonicalId canonicalIds p.text = intern nthId canonicalIds p.text := by
  rw [createCanonicalId, if_neg p.text_ne_nil, intern]
  cases canonicalIds.get p.text <;> rfl

variable {doc : Document} {o : Observed} {session : ChildSession} {sessionId a : Payload}

/-- A call changes only the id of its session, and creates one at most. -/
theorem Document.invalidateCanonicalId_spec (h : doc.sessions.get sessionId = some session) :
    (doc.invalidateCanonicalId sessionId).1.canonicalIds =
        (intern nthId doc.canonicalIds session.props.text).2 ∧
      ∀ a, (doc.invalidateCanonicalId sessionId).1.sessions.get a =
        if sessionId = a then
          some { session with
            canonicalViewId := (intern nthId doc.canonicalIds session.props.text).1 }
        else doc.sessions.get a := by
  rw [invalidateCanonicalId, h]
  simp only [createCanonicalId_eq]
  split
  case isTrue heq =>
    refine ⟨rfl, fun a => ?_⟩
    split
    case isTrue hsame =>
      rw [heq, ← hsame]
      exact h
    case isFalse => rfl
  case isFalse => exact ⟨rfl, fun a => OrderedMap.get_set⟩

theorem Observed.step_invalidateCanonicalId (h : o.doc.sessions.get sessionId = some session) :
    o.step (.invalidateCanonicalId sessionId) =
      ⟨(o.doc.invalidateCanonicalId sessionId).1,
        Function.update o.seen sessionId (some session.props),
        (session.props, (intern nthId o.doc.canonicalIds session.props.text).1) :: o.given⟩ := by
  have hafter := (Document.invalidateCanonicalId_spec h).2 sessionId
  rw [if_pos rfl] at hafter
  simp only [step, Document.step, h, hafter]

/-- What holds of every document: the ids are numbered, they have been given to what their texts are
of, and each session has the id given to what it has seen. -/
structure Inv (o : Observed) : Prop where
  numbered : Numbered nthId o.doc.canonicalIds
  given_get (g : ViewProps × Int) (h : g ∈ o.given) : o.doc.canonicalIds.get g.1.text = some g.2
  keys_seen (key : Payload) (h : key ∈ o.doc.canonicalIds.keys) : ∃ p ∈ o.allSeen, p.text = key
  seen_given (a : Payload) (p : ViewProps) (h : o.seen a = some p) :
    ∃ s, o.doc.sessions.get a = some s ∧ (p, s.canonicalViewId) ∈ o.given

/-- Where nothing is given, the sessions that have seen something keep their ids. -/
theorem Inv.of_kept (h : Inv o) {seen : Payload → Option ViewProps}
    (hids : doc.canonicalIds = o.doc.canonicalIds)
    (hkept : ∀ a p, seen a = some p → o.seen a = some p ∧ ∀ s, o.doc.sessions.get a = some s →
      ∃ s', doc.sessions.get a = some s' ∧ s'.canonicalViewId = s.canonicalViewId) :
    Inv ⟨doc, seen, o.given⟩ := by
  refine ⟨hids ▸ h.numbered, fun g hg => hids ▸ h.given_get g hg,
    fun key hkey => h.keys_seen key (hids ▸ hkey), fun a p hseen => ?_⟩
  obtain ⟨hold, hsessions⟩ := hkept a p hseen
  obtain ⟨s, hget, hgiven⟩ := h.seen_given a p hold
  obtain ⟨s', hget', hid⟩ := hsessions s hget
  exact ⟨s', hget', hid ▸ hgiven⟩

theorem Inv.modify (h : Inv o) (sessionId : Payload) {f : ChildSession → ChildSession}
    (hf : ∀ s, (f s).canonicalViewId = s.canonicalViewId) :
    Inv { o with doc := o.doc.modify sessionId f } := by
  refine h.of_kept rfl fun a p hseen => ⟨hseen, fun s hget => ?_⟩
  rw [Document.modify, OrderedMap.get_modify, hget]
  split
  · exact ⟨f s, rfl, hf s⟩
  · exact ⟨s, rfl, rfl⟩

theorem Inv.createSession (h : Inv o) (sessionId : Payload) :
    Inv { o with doc := o.doc.createSession sessionId } := by
  rw [Document.createSession]
  split
  case isTrue => exact h
  case isFalse hnot =>
    refine h.of_kept rfl fun a p hseen => ⟨hseen, fun s hget => ⟨s, ?_, rfl⟩⟩
    rw [OrderedMap.get_set_ne, hget]
    rintro rfl
    exact hnot (by simp [OrderedMap.has, hget])

theorem Inv.removeSession (h : Inv o) (sessionId : Payload) :
    Inv (o.step (.removeSession sessionId)) := by
  refine h.of_kept rfl fun a p hseen => ?_
  by_cases hsame : a = sessionId
  case pos =>
    rw [hsame, Function.update_self] at hseen
    cases hseen
  case neg =>
    rw [Function.update_of_ne hsame] at hseen
    refine ⟨hseen, fun s hget => ⟨s, ?_, rfl⟩⟩
    rw [Document.step, OrderedMap.get_delete, if_neg (Ne.symm hsame), hget]

theorem Inv.invalidateCanonicalId (h : Inv o) (sessionId : Payload) :
    Inv (o.step (.invalidateCanonicalId sessionId)) := by
  cases hget : o.doc.sessions.get sessionId with
  | none =>
      have hsame : o.step (.invalidateCanonicalId sessionId) = o := by
        simp [Observed.step, Document.step, Document.invalidateCanonicalId, hget]
      rwa [hsame]
  | some session =>
      obtain ⟨hids, hsessions⟩ := Document.invalidateCanonicalId_spec hget
      rw [Observed.step_invalidateCanonicalId hget]
      refine ⟨hids ▸ h.numbered.intern _, fun g hg => ?_, fun key hkey => ?_, fun a p hseen => ?_⟩
      · rw [hids]
        rcases List.mem_cons.mp hg with rfl | hold
        · exact get_intern_self _ _
        · exact get_intern_of_get (h.given_get g hold) _
      · rw [hids, mem_keys_intern] at hkey
        rcases hkey with rfl | hold
        · exact ⟨session.props, List.mem_cons_self, rfl⟩
        · obtain ⟨p, hp, htext⟩ := h.keys_seen key hold
          exact ⟨p, List.mem_cons_of_mem _ hp, htext⟩
      · by_cases hsame : a = sessionId
        case pos =>
          subst hsame
          change Function.update o.seen a (some session.props) a = some p at hseen
          rw [Function.update_self] at hseen
          cases hseen
          exact ⟨_, (hsessions a).trans (if_pos rfl), List.mem_cons_self⟩
        case neg =>
          change Function.update o.seen sessionId (some session.props) a = some p at hseen
          rw [Function.update_of_ne hsame] at hseen
          obtain ⟨s, hs, hgiven⟩ := h.seen_given a p hseen
          exact ⟨s, ((hsessions a).trans (if_neg (Ne.symm hsame))).trans hs,
            List.mem_cons_of_mem _ hgiven⟩

theorem Inv.step (h : Inv o) (e : Event) : Inv (o.step e) := by
  cases e with
  | createSession sessionId => exact h.createSession sessionId
  | removeSession sessionId => exact h.removeSession sessionId
  | setViewId sessionId viewId => exact h.modify sessionId fun _ => rfl
  | setWatermarkText sessionId text => exact h.modify sessionId fun _ => rfl
  | setViewRenderState sessionId state => exact h.modify sessionId fun _ => rfl
  | invalidateCanonicalId sessionId => exact h.invalidateCanonicalId sessionId

theorem inv_start : Inv Observed.start where
  numbered := numbered_empty
  given_get _ h := absurd h List.not_mem_nil
  keys_seen _ h := absurd h List.not_mem_nil
  seen_given _ _ h := nomatch h

theorem inv_run (events : List Event) : Inv (Observed.run events) :=
  List.foldlRecOn events Observed.step inv_start fun _ h e _ => h.step e

/-! ## When the ids separate the views -/

/-- The ids of sessions are those of what they have seen, and no id is given to two looks. -/
structure Separates (o : Observed) : Prop where
  equal_iff (a b : Payload) (s t : ChildSession) (p q : ViewProps)
    (hs : o.doc.sessions.get a = some s) (ht : o.doc.sessions.get b = some t)
    (hp : o.seen a = some p) (hq : o.seen b = some q) :
    s.canonicalViewId = t.canonicalViewId ↔
      p.watermarkText = q.watermarkText ∧ p.viewRenderState = q.viewRenderState
  given_once (g h : ViewProps × Int) (hg : g ∈ o.given) (hh : h ∈ o.given) (hid : g.2 = h.2) :
    g.1 = h.1

/-- A part of the state of one view, in front of a separator in it, is the end of the watermark of the
other. -/
def Clash (p q : ViewProps) : Prop :=
  ∃ middle, q.watermarkText = p.watermarkText ++ '|' :: middle ∧
    p.viewRenderState = middle ++ '|' :: q.viewRenderState

/-- No two views clash, and there are no more of them than values of an `int`. -/
structure Unmistakable (views : List ViewProps) : Prop where
  apart (p q : ViewProps) (hp : p ∈ views) (hq : q ∈ views) : ¬ Clash p q
  count : views.dedup.length ≤ 2 ^ 32

theorem Clash.text_eq {p q : ViewProps} (h : Clash p q) : p.text = q.text := by
  obtain ⟨middle, hwatermark, hstate⟩ := h
  simp [ViewProps.text, hwatermark, hstate]

theorem Clash.ne {p q : ViewProps} (h : Clash p q) : p ≠ q := by
  rintro rfl
  obtain ⟨middle, hwatermark, -⟩ := h
  exact absurd hwatermark (by simp)

/-- Views with the same text clash, or they are the same. -/
theorem clash_of_text_eq {p q : ViewProps} (h : p.text = q.text) :
    p = q ∨ Clash p q ∨ Clash q p := by
  rcases List.append_eq_append_iff.mp h with ⟨more, hq, hp⟩ | ⟨more, hp, hq⟩
  · cases more with
    | nil =>
        rw [List.append_nil] at hq
        exact .inl (ViewProps.ext hq.symm (List.cons.inj hp).2)
    | cons c middle =>
        obtain ⟨rfl, hstate⟩ := List.cons.inj hp
        exact .inr (.inl ⟨middle, hq, hstate⟩)
  · cases more with
    | nil =>
        rw [List.append_nil] at hp
        exact .inl (ViewProps.ext hp (List.cons.inj hq).2.symm)
    | cons c middle =>
        obtain ⟨rfl, hstate⟩ := List.cons.inj hq
        exact .inr (.inr ⟨middle, hp, hstate⟩)

theorem nthId_inj {i j : Nat} (hi : i < 2 ^ 32) (hj : j < 2 ^ 32) (h : nthId i = nthId j) :
    i = j := by
  have hmod (n : Nat) : nthId n % 2 ^ 32 = ((n : Int) + 1000) % 2 ^ 32 :=
    emod_toInt32 (n + 1000)
  have hsame := hmod i
  rw [h, hmod j] at hsame
  omega

/-- The id of a view, once it has one. -/
theorem Inv.exists_given (h : Inv o) {p : ViewProps} (hp : p ∈ o.allSeen) :
    ∃ id, (p, id) ∈ o.given ∧ o.doc.canonicalIds.get p.text = some id ∧ IsInt32 id := by
  obtain ⟨⟨p, id⟩, hg, rfl⟩ := List.mem_map.mp hp
  have hget := h.given_get _ hg
  obtain ⟨i, -, hid⟩ := h.numbered.exists_place hget
  refine ⟨id, hg, hget, ?_⟩
  rw [show id = toInt32 (i + 1000) from hid]
  exact isInt32_toInt32 (i + 1000)

theorem Inv.unmistakable (h : Inv o) (hseparates : Separates o) : Unmistakable o.allSeen := by
  refine ⟨fun p q hp hq hclash => ?_, ?_⟩
  · obtain ⟨id, hid, hget, -⟩ := h.exists_given hp
    obtain ⟨id', hid', hget', -⟩ := h.exists_given hq
    rw [hclash.text_eq, hget'] at hget
    exact hclash.ne (hseparates.given_once _ _ hid hid' (Option.some.inj hget).symm)
  · -- different views have different ids, of which there are no more
    let idOf (p : ViewProps) : Int := (o.doc.canonicalIds.get p.text).getD 0
    have hidOf {p : ViewProps} (hp : p ∈ o.allSeen) : (p, idOf p) ∈ o.given ∧ IsInt32 (idOf p) := by
      obtain ⟨id, hid, hget, hint⟩ := h.exists_given hp
      simp only [idOf, hget, Option.getD_some]
      exact ⟨hid, hint⟩
    have hnodup : (o.allSeen.dedup.map idOf).Nodup := by
      refine List.Nodup.map_on (fun p hp q hq heq => ?_) (List.nodup_dedup _)
      exact hseparates.given_once _ _ (hidOf (List.mem_dedup.mp hp)).1
        (hidOf (List.mem_dedup.mp hq)).1 heq
    have hrange : (o.allSeen.dedup.map idOf).toFinset ⊆ Finset.Ico (-2 ^ 31) (2 ^ 31) := by
      intro id hid
      obtain ⟨p, hp, rfl⟩ := List.mem_map.mp (List.mem_toFinset.mp hid)
      exact Finset.mem_Ico.mpr (hidOf (List.mem_dedup.mp hp)).2
    have hle := Finset.card_le_card hrange
    rw [List.toFinset_card_of_nodup hnodup, List.length_map, Int.card_Ico] at hle
    exact hle

theorem Inv.separates (h : Inv o) (hviews : Unmistakable o.allSeen) : Separates o := by
  have hcount := length_keys_le h.keys_seen
  have hkey {k k' : Payload} {id : Int} (hk : o.doc.canonicalIds.get k = some id)
      (hk' : o.doc.canonicalIds.get k' = some id) : k = k' := by
    refine h.numbered.key_unique (fun i hi j hj => nthId_inj ?_ ?_) hk hk'
    all_goals
      have hlimit := hviews.count
      omega
  have honce (g g' : ViewProps × Int) (hg : g ∈ o.given) (hg' : g' ∈ o.given) (hid : g.2 = g'.2) :
      g.1 = g'.1 := by
    have htext := hkey (h.given_get g hg) (hid ▸ h.given_get g' hg')
    have hp : g.1 ∈ o.allSeen := List.mem_map_of_mem hg
    have hq : g'.1 ∈ o.allSeen := List.mem_map_of_mem hg'
    rcases clash_of_text_eq htext with heq | hclash | hclash
    · exact heq
    · exact absurd hclash (hviews.apart _ _ hp hq)
    · exact absurd hclash (hviews.apart _ _ hq hp)
  refine ⟨fun a b s t p q hs ht hp hq => ?_, honce⟩
  obtain ⟨s, hs', hgiven⟩ := h.seen_given a p hp
  obtain ⟨t, ht', hgiven'⟩ := h.seen_given b q hq
  cases hs.symm.trans hs'
  cases ht.symm.trans ht'
  constructor
  · intro hid
    obtain rfl : p = q := honce _ _ hgiven hgiven' hid
    exact ⟨rfl, rfl⟩
  · intro hsame
    obtain rfl : p = q := ViewProps.ext hsame.1 hsame.2
    exact Option.some.inj ((h.given_get _ hgiven).symm.trans (h.given_get _ hgiven'))

theorem separates_iff (events : List Event) :
    Separates (Observed.run events) ↔ Unmistakable (Observed.run events).allSeen :=
  ⟨(inv_run events).unmistakable, (inv_run events).separates⟩

/-- The first watermark with the state of its view has the text of the second one with the state of
that. -/
def clashing : List Event :=
  [.createSession ['1'], .setWatermarkText ['1'] "ann".toList,
    .setViewRenderState ['1'] "x|S;Dark".toList, .invalidateCanonicalId ['1'],
    .createSession ['2'], .setWatermarkText ['2'] "ann|x".toList,
    .setViewRenderState ['2'] "S;Dark".toList, .invalidateCanonicalId ['2']]

theorem not_separates_clashing : ¬ Separates (Observed.run clashing) := by
  intro h
  have hgiven : (Observed.run clashing).given =
      [(⟨"ann|x".toList, "S;Dark".toList⟩, 1000), (⟨"ann".toList, "x|S;Dark".toList⟩, 1000)] := by
    decide
  have hsame := h.given_once (⟨"ann|x".toList, "S;Dark".toList⟩, 1000)
    (⟨"ann".toList, "x|S;Dark".toList⟩, 1000) (by simp [hgiven]) (by simp [hgiven]) rfl
  exact absurd hsame (by decide)

/-- The session that tiles with the id of a view are rendered for has seen what that view has. -/
theorem Separates.findByCanonicalId (h : Separates o) {b : Payload} {t found : ChildSession}
    {q : ViewProps} (ht : o.doc.sessions.get b = some t) (hq : o.seen b = some q)
    (hfound : o.doc.findByCanonicalId t.canonicalViewId = some found) :
    ∃ a, o.doc.sessions.get a = some found ∧ ∀ p, o.seen a = some p → p = q := by
  obtain ⟨⟨a, s⟩, hfind, rfl⟩ := Option.map_eq_some_iff.mp hfound
  have hmem := (List.mem_insertionSort _).mp (List.mem_of_find?_eq_some hfind)
  have hget := OrderedMap.get_of_mem hmem
  refine ⟨a, hget, fun p hp => ?_⟩
  have hmatch := List.find?_some hfind
  have hid : s.canonicalViewId = t.canonicalViewId := of_decide_eq_true hmatch
  obtain ⟨hwatermark, hstate⟩ := (h.equal_iff a b s t p q hget ht hp hq).mp hid
  exact ViewProps.ext hwatermark hstate

end CoolOnline.CanonicalIds
