import Mathlib.Data.List.Nodup

/-! # A queue with the latest of each key

Elements are posted to the queue and fetched from its front. An element with a key replaces the
queued one of that key; elements without a key are only queued.
-/

namespace CoolOnline.LatestQueue

variable {α κ : Type*} [DecidableEq κ] (key : α → Option κ)

/-- The elements that stay when `a` is posted. -/
def staysFor (a b : α) : Bool := (key b).isNone || key b != key a

def post (queue : List α) (a : α) : List α := queue.filter (staysFor key a) ++ [a]

/-- The queue, with all that was posted and fetched, oldest first. -/
structure Log (α : Type*) where
  queue : List α
  posted : List α
  fetched : List α

structure KeepsLatest (l : Log α) : Prop where
  /-- One element at most is queued of each key. -/
  one : (l.queue.filterMap key).Nodup
  /-- It is the last one posted. -/
  latest : ∀ a ∈ l.queue, ∀ k, key a = some k →
    (l.posted.filter fun b => key b = some k).getLast? = some a
  /-- Of the elements without a key none is lost, added or moved. -/
  kept : (l.fetched ++ l.queue).filter (fun a => (key a).isNone) =
    l.posted.filter fun a => (key a).isNone
  /-- The elements keep their order. -/
  ordered : List.Sublist (l.fetched ++ l.queue) l.posted

/-- The queued elements that `a` replaces when it is posted, each with `a`. -/
def replacedBy (queue : List α) (a : α) : List (α × α) :=
  (queue.filter fun b => !staysFor key a b).map (·, a)

/-- Every element posted is fetched, queued or was replaced by a later one of its key, and one of
its key that is later still was not replaced. -/
structure Accounts (l : Log α) (replaced : List (α × α)) : Prop where
  all : l.posted.Perm (l.fetched ++ l.queue ++ replaced.map Prod.fst)
  later : ∀ r ∈ replaced, ∃ k, key r.1 = some k ∧ key r.2 = some k ∧
    List.Sublist [r.1, r.2] l.posted
  latest : ∀ r ∈ replaced, ∃ b ∈ l.fetched ++ l.queue, key b = key r.1 ∧
    List.Sublist [r.1, b] l.posted

variable {key}

omit [DecidableEq κ] in
/-- Where keys are not repeated, there is one element at most of a key. -/
theorem length_filter_le_one {l : List α} {k : κ} {p : α → Bool} (hone : (l.filterMap key).Nodup)
    (hp : ∀ b ∈ l, p b = true ↔ key b = some k) : (l.filter p).length ≤ 1 := by
  have hkeys : (l.filter p).filterMap key = List.replicate (l.filter p).length k := by
    refine List.eq_replicate_iff.mpr ⟨?_, fun k' hk' => ?_⟩
    · rw [List.length_filterMap_eq_countP, List.countP_eq_length]
      intro b hb
      obtain ⟨hmem, hb⟩ := List.mem_filter.mp hb
      rw [(hp b hmem).mp hb]
      rfl
    · obtain ⟨b, hb, hkey⟩ := List.mem_filterMap.mp hk'
      obtain ⟨hmem, hb⟩ := List.mem_filter.mp hb
      rw [(hp b hmem).mp hb] at hkey
      exact (Option.some.inj hkey).symm
  have hsub : (l.filter p).Sublist l := List.filter_sublist
  have hnodup := hone.sublist (hsub.filterMap key)
  rw [hkeys, List.nodup_replicate] at hnodup
  exact hnodup

theorem eraseP_eq_filter_not {l : List α} {p : α → Bool} (h : (l.filter p).length ≤ 1) :
    l.eraseP p = l.filter fun b => !p b := by
  induction l with
  | nil => rfl
  | cons b l ih =>
      cases hb : p b with
      | true =>
          rw [List.filter_cons_of_pos hb, List.length_cons] at h
          have hzero : (l.filter p).length = 0 := by omega
          have hnil := List.filter_eq_nil_iff.mp (List.length_eq_zero_iff.mp hzero)
          rw [List.eraseP_cons_of_pos hb, List.filter_cons_of_neg (by simp [hb]), eq_comm,
            List.filter_eq_self]
          exact fun c hc => by simp [hnil c hc]
      | false =>
          rw [List.filter_cons_of_neg (by simp [hb])] at h
          rw [List.eraseP_cons_of_neg (by simp [hb]), List.filter_cons_of_pos (by simp [hb]), ih h]

theorem staysFor_eq_not {a b : α} {k : κ} {p : α → Bool} (ha : key a = some k)
    (hp : p b = true ↔ key b = some k) : staysFor key a b = !p b := by
  cases hb : p b with
  | true => simp [staysFor, ha, hp.mp hb]
  | false =>
      have hne : key b ≠ some k := fun h => by simp [hp.mpr h] at hb
      simp [staysFor, ha, hne]

/-- Where keys are not repeated, erasing the first element of a key erases them all. -/
theorem eraseP_eq_filter {l : List α} {a : α} {k : κ} {p : α → Bool} (ha : key a = some k)
    (hone : (l.filterMap key).Nodup) (hp : ∀ b ∈ l, p b = true ↔ key b = some k) :
    l.eraseP p = l.filter (staysFor key a) := by
  rw [eraseP_eq_filter_not (length_filter_le_one hone hp)]
  exact List.filter_congr fun b hb => (staysFor_eq_not ha (hp b hb)).symm

/-- The element that is erased is the one that is replaced. -/
theorem find?_eq_filter {l : List α} {a : α} {k : κ} {p : α → Bool} (ha : key a = some k)
    (hone : (l.filterMap key).Nodup) (hp : ∀ b ∈ l, p b = true ↔ key b = some k) :
    (l.find? p).toList = l.filter fun b => !staysFor key a b := by
  have hfilter : l.filter (fun b => !staysFor key a b) = l.filter p :=
    List.filter_congr fun b hb => by rw [staysFor_eq_not ha (hp b hb), Bool.not_not]
  have hlength := length_filter_le_one hone hp
  rw [hfilter, ← List.head?_filter]
  cases hl : l.filter p with
  | nil => rfl
  | cons b rest =>
      rw [hl, List.length_cons] at hlength
      rw [List.length_eq_zero_iff.mp (by omega : rest.length = 0)]
      rfl

theorem filter_staysFor_of_none (l : List α) {a : α} (ha : key a = none) :
    l.filter (staysFor key a) = l := by
  refine List.filter_eq_self.mpr fun b _ => ?_
  cases h : key b <;> simp [staysFor, ha, h]

theorem filter_staysFor_of_forall {l : List α} {a : α} (h : ∀ b ∈ l, key b = key a → key a = none) :
    l.filter (staysFor key a) = l := by
  refine List.filter_eq_self.mpr fun b hb => ?_
  by_cases heq : key b = key a
  · simp [staysFor, heq, h b hb heq]
  · simp [staysFor, heq]

namespace KeepsLatest

variable {l : Log α}

theorem post (hl : KeepsLatest key l) (a : α) :
    KeepsLatest key ⟨LatestQueue.post key l.queue a, l.posted ++ [a], l.fetched⟩ := by
  have hsub : (l.queue.filter (staysFor key a)).Sublist l.queue := List.filter_sublist
  refine ⟨?_, ?_, ?_, ?_⟩
  · have hone := hl.one.sublist (hsub.filterMap key)
    cases ha : key a with
    | none => simpa [LatestQueue.post, ha] using hone
    | some k =>
        simp only [LatestQueue.post, List.filterMap_append, List.filterMap_cons_some ha,
          List.filterMap_nil]
        refine hone.append (List.nodup_singleton k) ?_
        intro k' hk' hk
        obtain ⟨b, hb, hkey⟩ := List.mem_filterMap.mp hk'
        have hstays := (List.mem_filter.mp hb).2
        rw [List.mem_singleton.mp hk] at hkey
        simp [staysFor, ha, hkey] at hstays
  · intro b hb k hk
    simp only [LatestQueue.post, List.mem_append, List.mem_filter, List.mem_singleton] at hb
    rcases hb with ⟨hb, hstays⟩ | rfl
    · have hne : key a ≠ some k := by
        intro ha
        simp [staysFor, ha, hk] at hstays
      simpa [List.filter_append, hne] using hl.latest b hb k hk
    · simp [List.filter_append, hk]
  · have hstay : (l.queue.filter (staysFor key a)).filter (fun b => (key b).isNone) =
        l.queue.filter fun b => (key b).isNone := by
      rw [List.filter_filter]
      refine List.filter_congr fun b _ => ?_
      cases h : key b <;> simp [staysFor, h]
    have hkept := hl.kept
    simp only [List.filter_append] at hkept
    simp only [LatestQueue.post, List.filter_append, hstay, ← hkept, List.append_assoc]
  · have hleft : (l.fetched ++ l.queue.filter (staysFor key a)).Sublist l.posted :=
      ((List.Sublist.refl l.fetched).append hsub).trans hl.ordered
    simpa [LatestQueue.post] using hleft.append (List.Sublist.refl [a])

theorem fetch {front : α} {queue : List α} (hl : KeepsLatest key l)
    (hqueue : l.queue = front :: queue) :
    KeepsLatest key ⟨queue, l.posted, l.fetched ++ [front]⟩ := by
  obtain ⟨hone, hlatest, hkept, hordered⟩ := hl
  rw [hqueue] at hone hlatest hkept hordered
  refine ⟨?_, ?_, by simpa using hkept, by simpa using hordered⟩
  · exact hone.sublist ((List.sublist_cons_self front queue).filterMap key)
  · intro a ha k hk
    exact hlatest a (List.mem_cons_of_mem _ ha) k hk

theorem empty : KeepsLatest key (⟨[], [], []⟩ : Log α) :=
  ⟨by simp, by simp, rfl, by simp⟩

end KeepsLatest

theorem of_mem_replacedBy {queue : List α} {a : α} {r : α × α} (h : r ∈ replacedBy key queue a) :
    r.1 ∈ queue ∧ r.2 = a ∧ ∃ k, key r.1 = some k ∧ key a = some k := by
  simp only [replacedBy, List.mem_map, List.mem_filter] at h
  obtain ⟨b, ⟨hb, hgone⟩, rfl⟩ := h
  cases hkey : key b with
  | none => simp [staysFor, hkey] at hgone
  | some k =>
      have ha : some k = key a := by simpa [staysFor, hkey] using hgone
      exact ⟨hb, rfl, k, rfl, ha.symm⟩

namespace Accounts

variable {l : Log α} {replaced : List (α × α)}

theorem post (hl : Accounts key l replaced) (a : α) :
    Accounts key ⟨LatestQueue.post key l.queue a, l.posted ++ [a], l.fetched⟩
      (replaced ++ replacedBy key l.queue a) := by
  have hposted : List.Sublist l.posted (l.posted ++ [a]) := List.sublist_append_left _ _
  have hlast {b : α} (hb : b ∈ l.posted) : List.Sublist [b, a] (l.posted ++ [a]) :=
    (List.singleton_sublist.mpr hb).append (List.Sublist.refl [a])
  have hqueued {b : α} (hb : b ∈ l.queue) : b ∈ l.posted :=
    hl.all.mem_iff.mpr (by simp [hb])
  constructor
  · classical
    have hfst : (replacedBy key l.queue a).map Prod.fst =
        l.queue.filter fun b => !staysFor key a b := by
      simp [replacedBy, Function.comp_def]
    apply List.perm_iff_count.mpr
    intro b
    have hcount := hl.all.count_eq b
    have hsplit := (List.filter_append_perm (staysFor key a) l.queue).count_eq b
    simp only [List.count_append] at hcount hsplit
    simp only [LatestQueue.post, List.map_append, List.count_append, hfst, hcount]
    omega
  · intro r hr
    rcases List.mem_append.mp hr with hold | hnew
    · obtain ⟨k, h₁, h₂, hsub⟩ := hl.later r hold
      exact ⟨k, h₁, h₂, hsub.trans hposted⟩
    · obtain ⟨hmem, rfl, k, h₁, h₂⟩ := of_mem_replacedBy hnew
      exact ⟨k, h₁, h₂, hlast (hqueued hmem)⟩
  · -- a survivor that is replaced in turn leaves the posted element in its place
    intro r hr
    have hkept {b : α} (hb : b ∈ l.fetched ++ l.queue) (hstays : key b ≠ key a) :
        b ∈ l.fetched ++ LatestQueue.post key l.queue a := by
      rcases List.mem_append.mp hb with hb | hb
      · exact List.mem_append_left _ hb
      · have hstay : staysFor key a b = true := by simp [staysFor, hstays]
        exact List.mem_append_right _ (List.mem_append_left _ (List.mem_filter.mpr ⟨hb, hstay⟩))
    have hpost : a ∈ l.fetched ++ LatestQueue.post key l.queue a := by simp [LatestQueue.post]
    rcases List.mem_append.mp hr with hold | hnew
    · obtain ⟨b, hb, hkey, hsub⟩ := hl.latest r hold
      by_cases ha : key b = key a
      · exact ⟨a, hpost, ha ▸ hkey, hlast (hsub.subset (by simp))⟩
      · exact ⟨b, hkept hb ha, hkey, hsub.trans hposted⟩
    · obtain ⟨hmem, -, k, h₁, h₂⟩ := of_mem_replacedBy hnew
      exact ⟨a, hpost, h₂.trans h₁.symm, hlast (hqueued hmem)⟩

omit [DecidableEq κ] in
theorem fetch {front : α} {queue : List α} (hl : Accounts key l replaced)
    (hqueue : l.queue = front :: queue) :
    Accounts key ⟨queue, l.posted, l.fetched ++ [front]⟩ replaced := by
  obtain ⟨hall, hlater, hlatest⟩ := hl
  rw [hqueue] at hall hlatest
  exact ⟨by simpa using hall, hlater, by simpa using hlatest⟩

omit [DecidableEq κ] in
theorem empty : Accounts key (⟨[], [], []⟩ : Log α) [] := ⟨by simp, by simp, by simp⟩

end Accounts

end CoolOnline.LatestQueue
