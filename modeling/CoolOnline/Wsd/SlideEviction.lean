import CoolOnline.Wsd.SlideCache

/-! # Which slides are evicted

The calls of a `SlideLayerCacheMap`, the last one first, and what the cache holds after them.
-/

namespace CoolOnline.Slides.SlideLayerCacheMap

inductive Call
  | insert (key : Key) (cachedData : Message)
  | reduceSizeTo (desiredSize : Nat)
  | eraseAll

def call (c : SlideLayerCacheMap) : Call → SlideLayerCacheMap
  | .insert key cachedData => c.insert key cachedData
  | .reduceSizeTo desiredSize => c.reduceSizeTo desiredSize
  | .eraseAll => c.eraseAll

/-- The cache after the calls. -/
def after (maxSize : Nat) : List Call → SlideLayerCacheMap
  | [] => new maxSize
  | c :: calls => (after maxSize calls).call c

/-- What a call inserts for a key. -/
def Call.inserted (key : Key) : Call → List Message
  | .insert key' cachedData => if key' = key then [cachedData] else []
  | _ => []

/-- What has been inserted for a key since it last entered the map. -/
def since (maxSize : Nat) (key : Key) : List Call → List Message
  | [] => []
  | c :: calls =>
      (if (after maxSize calls).cacheMap.has key then since maxSize key calls else []) ++
        c.inserted key

/-- The number of calls since the last insertion for a key. -/
def age (key : Key) : List Call → Nat
  | [] => 0
  | c :: calls => if c.inserted key = [] then age key calls + 1 else 0

/-- A key was in the map, or is inserted, and is not in the map after the call. -/
def Evicts (maxSize : Nat) (c : Call) (calls : List Call) (key : Key) : Prop :=
  (key ∈ (after maxSize calls).cacheMap.keys ∨ c.inserted key ≠ []) ∧
    key ∉ (after maxSize (c :: calls)).cacheMap.keys

/-- What is said of the cache after any calls. -/
structure KeepsRecent (maxSize : Nat) (calls : List Call) : Prop where
  ordered : (after maxSize calls).insertionOrder.Perm (after maxSize calls).cacheMap.keys
  nodup : (after maxSize calls).insertionOrder.Nodup
  messages (key : Key) (messages : List Message)
    (hfind : (after maxSize calls).find key = some messages) : messages = since maxSize key calls
  bounded (key : Key) (cachedData : Message) (older : List Call)
    (hcalls : calls = .insert key cachedData :: older) :
    (after maxSize calls).cacheMap.entries.length ≤ maxSize
  evicted (c : Call) (older : List Call) (hcalls : calls = c :: older) (hc : c ≠ .eraseAll)
    (key : Key) (hevicts : Evicts maxSize c older key) :
    ∀ kept ∈ (after maxSize calls).cacheMap.keys, age kept calls < age key calls

/-! ## The order by age -/

/-- The order lists the keys of the map by their age, the oldest first, with what has been inserted
for them. -/
structure Holds (c : SlideLayerCacheMap) (age : Key → Nat) (since : Key → List Message) :
    Prop where
  ordered : c.insertionOrder.Perm c.cacheMap.keys
  sorted : c.insertionOrder.Pairwise fun older newer => age newer < age older
  messages (key : Key) (hkey : key ∈ c.insertionOrder) : c.cacheMap.get key = some (since key)

section

variable {c : SlideLayerCacheMap} {age : Key → Nat} {since : Key → List Message}

theorem Holds.nodup (h : Holds c age since) : c.insertionOrder.Nodup :=
  h.ordered.nodup_iff.mpr c.cacheMap.nodup

theorem Holds.mem_iff (h : Holds c age since) {key : Key} :
    key ∈ c.insertionOrder ↔ c.cacheMap.has key = true :=
  h.ordered.mem_iff.trans OrderedMap.has_iff.symm

/-- The front of the order is taken out, and its keys out of the map. -/
theorem reduceFrom_eq {n : Nat} {cacheMap : OrderedMap Key (List Message)} {order : List Key}
    (h : order.Perm cacheMap.keys) :
    (reduceFrom n cacheMap order).2 = order.drop (order.length - n) ∧
      (reduceFrom n cacheMap order).2.Perm (reduceFrom n cacheMap order).1.keys ∧
      ∀ key ∈ (reduceFrom n cacheMap order).2,
        (reduceFrom n cacheMap order).1.get key = cacheMap.get key := by
  induction order generalizing cacheMap with
  | nil => exact ⟨by simp [reduceFrom], h, fun key hkey => by cases hkey⟩
  | cons front order ih =>
      have hlength := h.length_eq
      rw [OrderedMap.length_keys, List.length_cons] at hlength
      rw [reduceFrom]
      split
      case isTrue hmore =>
        have hrest : order.Perm (cacheMap.delete front).keys := by
          rw [OrderedMap.keys_delete]
          exact List.erase_cons_head front order ▸ h.erase front
        obtain ⟨hdrop, hperm, hget⟩ := ih hrest
        refine ⟨?_, hperm, fun key hkey => ?_⟩
        · rw [hdrop, List.length_cons, Nat.succ_sub (by omega), List.drop_succ_cons]
        · have hmem : key ∈ order := List.mem_of_mem_drop (hdrop ▸ hkey)
          have hne : front ≠ key := by
            rintro rfl
            exact (List.nodup_cons.mp (h.nodup_iff.mpr cacheMap.nodup)).1 hmem
          rw [hget key hkey, OrderedMap.get_delete, if_neg hne]
      case isFalse hfits =>
        rw [List.length_cons, Nat.sub_eq_zero_of_le (by omega), List.drop_zero]
        exact ⟨rfl, h, fun key _ => rfl⟩

theorem insertionOrder_reduceSizeTo (h : Holds c age since) (n : Nat) :
    (c.reduceSizeTo n).insertionOrder = c.insertionOrder.drop (c.insertionOrder.length - n) :=
  (reduceFrom_eq h.ordered).1

theorem Holds.reduceSizeTo (h : Holds c age since) (n : Nat) :
    Holds (c.reduceSizeTo n) age since := by
  obtain ⟨-, hperm, hget⟩ := reduceFrom_eq (n := n) h.ordered
  refine ⟨hperm, ?_, fun key hkey => ?_⟩
  · rw [insertionOrder_reduceSizeTo h]
    exact h.sorted.sublist (List.drop_sublist _ _)
  · have hmem : key ∈ c.insertionOrder := by
      rw [insertionOrder_reduceSizeTo h] at hkey
      exact List.mem_of_mem_drop hkey
    rw [← h.messages key hmem]
    exact hget key hkey

theorem Holds.length_reduceSizeTo (h : Holds c age since) (n : Nat) :
    (c.reduceSizeTo n).cacheMap.entries.length ≤ n := by
  rw [← OrderedMap.length_keys, ← (h.reduceSizeTo n).ordered.length_eq,
    insertionOrder_reduceSizeTo h, List.length_drop]
  omega

/-- What goes is older than what stays. -/
theorem Holds.age_lt (h : Holds c age since) {n : Nat} {key kept : Key}
    (hkey : key ∈ c.insertionOrder) (hgone : key ∉ (c.reduceSizeTo n).cacheMap.keys)
    (hkept : kept ∈ (c.reduceSizeTo n).cacheMap.keys) : age kept < age key := by
  rw [← (h.reduceSizeTo n).ordered.mem_iff, insertionOrder_reduceSizeTo h] at hgone hkept
  have hsorted := h.sorted
  rw [← List.take_append_drop (c.insertionOrder.length - n) c.insertionOrder] at hsorted hkey
  have hfront := (List.mem_append.mp hkey).resolve_right hgone
  exact (List.pairwise_append.mp hsorted).2.2 key hfront kept hkept

/-! ## Calls -/

/-- A key that is inserted goes to the end of the order. -/
theorem Holds.orderWith_eq (h : Holds c age since) (key : Key) :
    c.orderWith key = c.insertionOrder.erase key ++ [key] := by
  rw [orderWith]
  split_ifs with hhas hlast
  · obtain ⟨front, hfront⟩ := List.getLast?_eq_some_iff.mp hlast
    have hnodup := h.nodup
    rw [hfront, List.nodup_append] at hnodup
    have hnot : key ∉ front := fun hmem => hnodup.2.2 key hmem key (by simp) rfl
    rw [hfront, List.erase_append_right _ hnot]
    simp
  · rfl
  · rw [List.erase_of_not_mem (mt h.mem_iff.mp hhas)]

/-- An insertion before anything is evicted. -/
def added (c : SlideLayerCacheMap) (key : Key) (cachedData : Message) : SlideLayerCacheMap :=
  { c with
    insertionOrder := c.orderWith key
    cacheMap := c.cacheMap.set key ((c.cacheMap.get key).getD [] ++ [cachedData]) }

theorem insert_eq (c : SlideLayerCacheMap) (key : Key) (cachedData : Message) :
    c.insert key cachedData = (c.added key cachedData).reduceSizeTo c.maxSize := rfl

theorem Holds.added (h : Holds c age since) {key : Key} {cachedData : Message} {age' : Key → Nat}
    {since' : Key → List Message} (hage : age' key = 0)
    (holder : ∀ other, other ≠ key → age' other = age other + 1)
    (hadded : since' key = (if c.cacheMap.has key then since key else []) ++ [cachedData])
    (hkept : ∀ other ∈ c.insertionOrder, other ≠ key → since' other = since other) :
    Holds (c.added key cachedData) age' since' := by
  have horder : (c.added key cachedData).insertionOrder = c.insertionOrder.erase key ++ [key] :=
    h.orderWith_eq key
  have hne (other : Key) (hother : other ∈ c.insertionOrder.erase key) : other ≠ key :=
    (h.nodup.mem_erase_iff.mp hother).1
  refine ⟨perm_orderWith h.ordered key _, ?sorted, fun other hmem => ?messages⟩
  case sorted =>
    rw [horder, List.pairwise_append]
    refine ⟨?_, List.pairwise_singleton _ _, fun other hother last hlast => ?_⟩
    · have hsorted : (c.insertionOrder.erase key).Pairwise fun a b => age b < age a :=
        h.sorted.sublist List.erase_sublist
      refine hsorted.imp_of_mem fun {a b} ha hb hab => ?_
      rw [holder a (hne a ha), holder b (hne b hb)]
      exact Nat.add_lt_add_right hab 1
    · rw [List.mem_singleton.mp hlast, hage, holder other (hne other hother)]
      exact Nat.succ_pos _
  case messages =>
    rw [horder, List.mem_append, List.mem_singleton] at hmem
    show (c.cacheMap.set key _).get other = some (since' other)
    cases hmem with
    | inl hold =>
        have hbefore : other ∈ c.insertionOrder := List.mem_of_mem_erase hold
        rw [OrderedMap.get_set, if_neg (hne other hold).symm, h.messages other hbefore,
          hkept other hbefore (hne other hold)]
    | inr hself =>
        rw [hself, OrderedMap.get_set, if_pos rfl, hadded]
        split_ifs with hhas
        · rw [h.messages key (h.mem_iff.mpr hhas), Option.getD_some]
        · have hnone : c.cacheMap.get key = none := by
            simpa [OrderedMap.has] using hhas
          rw [hnone, Option.getD_none]

/-- Where nothing is inserted everything gets older. -/
theorem Holds.older (h : Holds c age since) {age' : Key → Nat} {since' : Key → List Message}
    (holder : ∀ key, age' key = age key + 1)
    (hkept : ∀ key ∈ c.insertionOrder, since' key = since key) : Holds c age' since' := by
  refine ⟨h.ordered, ?_, fun key hkey => ?_⟩
  · refine h.sorted.imp fun {a b} hab => ?_
    rw [holder, holder]
    exact Nat.add_lt_add_right hab 1
  · rw [hkept key hkey]
    exact h.messages key hkey

end

variable (maxSize : Nat)

theorem maxSize_after (calls : List Call) : (after maxSize calls).maxSize = maxSize := by
  induction calls with
  | nil => rfl
  | cons c calls ih => cases c <;> exact ih

theorem holds_new (age : Key → Nat) (since : Key → List Message) :
    Holds (new maxSize) age since :=
  ⟨.refl _, List.Pairwise.nil, fun key hkey => by cases hkey⟩

/-- The cache before a call makes room, by the ages after the call. -/
theorem Holds.insertion {calls : List Call} {key : Key} {cachedData : Message}
    (h : Holds (after maxSize calls) (fun k => age k calls) (fun k => since maxSize k calls)) :
    Holds ((after maxSize calls).added key cachedData)
      (fun k => age k (.insert key cachedData :: calls))
      (fun k => since maxSize k (.insert key cachedData :: calls)) := by
  refine h.added ?_ (fun other hother => ?_) ?_ (fun other hmem hother => ?_)
  · simp [age, Call.inserted]
  · simp [age, Call.inserted, hother.symm]
  · simp [since, Call.inserted]
  · simp [since, Call.inserted, hother.symm, h.mem_iff.mp hmem]

theorem Holds.reduction {calls : List Call} {desiredSize : Nat}
    (h : Holds (after maxSize calls) (fun k => age k calls) (fun k => since maxSize k calls)) :
    Holds (after maxSize calls) (fun k => age k (.reduceSizeTo desiredSize :: calls))
      (fun k => since maxSize k (.reduceSizeTo desiredSize :: calls)) := by
  refine h.older (fun key => ?_) (fun key hkey => ?_)
  · simp [age, Call.inserted]
  · simp [since, Call.inserted, h.mem_iff.mp hkey]

theorem holds_after (calls : List Call) :
    Holds (after maxSize calls) (fun key => age key calls) fun key => since maxSize key calls := by
  induction calls with
  | nil => exact holds_new maxSize _ _
  | cons c calls ih =>
      cases c with
      | insert key cachedData => exact (ih.insertion maxSize).reduceSizeTo _
      | reduceSizeTo desiredSize => exact (ih.reduction maxSize).reduceSizeTo _
      | eraseAll => exact holds_new _ _ _

/-- The least recently inserted keys are evicted, and what stays has all its messages. -/
theorem keepsRecent (calls : List Call) : KeepsRecent maxSize calls := by
  have hholds := holds_after maxSize calls
  refine ⟨hholds.ordered, hholds.nodup, ?messages, ?bounded, ?evicted⟩
  case messages =>
    intro key messages hfind
    have hmem : key ∈ (after maxSize calls).insertionOrder :=
      hholds.ordered.mem_iff.mpr (OrderedMap.mem_keys_of_get hfind)
    exact Option.some.inj (hfind.symm.trans (hholds.messages key hmem))
  case bounded =>
    intro key cachedData older hcalls
    have hadded : Holds ((after maxSize older).added key cachedData) _ _ :=
      (holds_after maxSize older).insertion maxSize
    have hlength := hadded.length_reduceSizeTo (after maxSize older).maxSize
    rw [← insert_eq, maxSize_after] at hlength
    rw [hcalls]
    exact hlength
  case evicted =>
    intro c older hcalls hc key hevicts kept hkept
    subst hcalls
    obtain ⟨hwas, hgone⟩ := hevicts
    have holder := holds_after maxSize older
    cases c with
    | insert key' cachedData =>
        have hadded : Holds ((after maxSize older).added key' cachedData) _ _ :=
          holder.insertion maxSize
        refine hadded.age_lt ?_ hgone hkept
        rw [show (added _ key' cachedData).insertionOrder = _ from holder.orderWith_eq key']
        cases hwas with
        | inl hbefore =>
            by_cases hsame : key = key'
            · simp [hsame]
            · have hmem := holder.ordered.mem_iff.mpr hbefore
              exact List.mem_append_left _ ((List.mem_erase_of_ne hsame).mpr hmem)
        | inr hinserted =>
            have hsame : key' = key := by
              by_contra hne
              simp [Call.inserted, hne] at hinserted
            simp [hsame]
    | reduceSizeTo desiredSize =>
        have hbefore := hwas.resolve_right (by simp [Call.inserted])
        exact (holder.reduction maxSize).age_lt (holder.ordered.mem_iff.mpr hbefore) hgone hkept
    | eraseAll => exact absurd rfl hc

end CoolOnline.Slides.SlideLayerCacheMap
