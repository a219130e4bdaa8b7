import CoolOnline.Library.OrderedMap
import Mathlib.Data.List.Perm.Basic
import Mathlib.Data.List.Nodup

/-! # The cache of slide layers

`SlideLayerCacheMap` of `wsd/SlideCache.cpp`: for each key, which is all that a client says of the
slide that it asks for, the messages that the kit has answered with. Keys are evicted in the order
in which they were last added to.
-/

namespace CoolOnline.Slides

abbrev Key := String

/-- A `slidelayer:` or `sliderenderingcomplete:` message, with the `cacheKey` of its JSON: empty if
it has none, and none if it is no JSON. -/
structure Message where
  cacheKey : Option Key
  data : String
deriving DecidableEq, Repr

structure SlideLayerCacheMap where
  cacheMap : OrderedMap Key (List Message)
  insertionOrder : List Key
  maxSize : Nat

namespace SlideLayerCacheMap

def new (maxSize : Nat) : SlideLayerCacheMap := ⟨.empty, [], maxSize⟩

/-- The `while` loop of `reduceSizeTo`, over what is left of the order. -/
def reduceFrom (desiredSize : Nat) (cacheMap : OrderedMap Key (List Message)) :
    List Key → OrderedMap Key (List Message) × List Key
  | [] => (cacheMap, [])
  | front :: order =>
      if desiredSize < cacheMap.entries.length then
        reduceFrom desiredSize (cacheMap.delete front) order
      else (cacheMap, front :: order)

section

variable (c : SlideLayerCacheMap) (key : Key)

def reduceSizeTo (desiredSize : Nat) : SlideLayerCacheMap :=
  let (cacheMap, insertionOrder) := reduceFrom desiredSize c.cacheMap c.insertionOrder
  { c with cacheMap := cacheMap, insertionOrder := insertionOrder }

/-- Where `key` stands in the order once something is added to it. -/
def orderWith : List Key :=
  if c.cacheMap.has key then
    if c.insertionOrder.getLast? = some key then c.insertionOrder
    else c.insertionOrder.erase key ++ [key]
  else c.insertionOrder ++ [key]

def insert (cachedData : Message) : SlideLayerCacheMap :=
  { c with
    insertionOrder := c.orderWith key
    cacheMap := c.cacheMap.set key ((c.cacheMap.get key).getD [] ++ [cachedData]) }.reduceSizeTo
      c.maxSize

def eraseAll : SlideLayerCacheMap := new c.maxSize

def find : Option (List Message) := c.cacheMap.get key

/-- Room must be made for `key`, by evicting this one. -/
def evicts : Option Key :=
  if c.cacheMap.has key ∨ c.cacheMap.entries.length < c.maxSize then none
  else c.insertionOrder.head?

end

/-! ## The order and the map -/

/-- The order lists the keys of the map, and there are not too many. -/
structure WellFormed (c : SlideLayerCacheMap) : Prop where
  ordered : c.insertionOrder.Perm c.cacheMap.keys
  bounded : c.cacheMap.entries.length ≤ c.maxSize
  room : 0 < c.maxSize

section

variable {c : SlideLayerCacheMap} {key k : Key} {m : Message}

theorem wellFormed_new {maxSize : Nat} (h : 0 < maxSize) : WellFormed (new maxSize) :=
  ⟨.refl _, Nat.zero_le _, h⟩

/-- The order after an insertion lists the keys of the map after it. -/
theorem perm_orderWith (h : c.insertionOrder.Perm c.cacheMap.keys) (key : Key) (a : List Message) :
    (c.orderWith key).Perm (c.cacheMap.set key a).keys := by
  rw [orderWith]
  split_ifs with hhas hlast
  · rw [OrderedMap.keys_set_of_has hhas]
    exact h
  · rw [OrderedMap.keys_set_of_has hhas]
    have hmem : key ∈ c.insertionOrder := h.mem_iff.mpr (OrderedMap.has_iff.mp hhas)
    apply List.Perm.trans _ h
    exact List.perm_append_comm.trans (List.perm_cons_erase hmem).symm
  · rw [OrderedMap.keys_set_of_not_has hhas]
    exact h.append_right [key]

theorem length_set (c : SlideLayerCacheMap) (key : Key) (a : List Message) :
    (c.cacheMap.set key a).entries.length =
      if c.cacheMap.has key then c.cacheMap.entries.length
      else c.cacheMap.entries.length + 1 := by
  rw [← OrderedMap.length_keys, ← OrderedMap.length_keys]
  split_ifs with hhas
  · rw [OrderedMap.keys_set_of_has hhas]
  · rw [OrderedMap.keys_set_of_not_has hhas, List.length_append]
    rfl

theorem reduceFrom_of_le {desiredSize : Nat} {cacheMap : OrderedMap Key (List Message)}
    (h : cacheMap.entries.length ≤ desiredSize) (order : List Key) :
    reduceFrom desiredSize cacheMap order = (cacheMap, order) := by
  cases order with
  | nil => rfl
  | cons front order => exact if_neg (Nat.not_lt.mpr h)

/-- An insertion that evicts nothing. -/
theorem WellFormed.insert_of_evicts_none (hc : WellFormed c)
    (hroom : c.cacheMap.has key ∨ c.cacheMap.entries.length < c.maxSize) :
    WellFormed (c.insert key m) ∧
      ∀ k, (c.insert key m).find k =
        if key = k then some ((c.find key).getD [] ++ [m]) else c.find k := by
  have hordered := perm_orderWith hc.ordered key ((c.cacheMap.get key).getD [] ++ [m])
  have hlength := length_set c key ((c.cacheMap.get key).getD [] ++ [m])
  have hbounded := hc.bounded
  have hle : (c.cacheMap.set key ((c.cacheMap.get key).getD [] ++ [m])).entries.length ≤
      c.maxSize := by
    rw [hlength]
    split_ifs with hhas
    · exact hbounded
    · exact hroom.resolve_left hhas
  have hinsert : c.insert key m =
      { c with
        cacheMap := c.cacheMap.set key ((c.cacheMap.get key).getD [] ++ [m])
        insertionOrder := c.orderWith key } := by
    rw [insert, reduceSizeTo]
    dsimp only
    rw [reduceFrom_of_le hle]
  rw [hinsert]
  exact ⟨⟨hordered, hle, hc.room⟩, fun k => OrderedMap.get_set⟩

/-- An insertion that makes room. -/
theorem WellFormed.insert_of_evicts {front : Key} {order : List Key} (hc : WellFormed c)
    (hhas : ¬ c.cacheMap.has key = true) (hfull : ¬ c.cacheMap.entries.length < c.maxSize)
    (horder : c.insertionOrder = front :: order) :
    WellFormed (c.insert key m) ∧
      ∀ k, (c.insert key m).find k =
        if key = k then some ((c.find key).getD [] ++ [m])
        else if front = k then none
        else c.find k := by
  have hordered := perm_orderWith hc.ordered key ((c.cacheMap.get key).getD [] ++ [m])
  have hlength := length_set c key ((c.cacheMap.get key).getD [] ++ [m])
  have hbounded := hc.bounded
  rw [if_neg hhas] at hlength
  have hwith : c.orderWith key = front :: (order ++ [key]) := by
    rw [orderWith, if_neg hhas, horder]
    rfl
  rw [hwith] at hordered
  have hrest : (order ++ [key]).Perm
      ((c.cacheMap.set key ((c.cacheMap.get key).getD [] ++ [m])).delete front).keys := by
    rw [OrderedMap.keys_delete]
    exact List.erase_cons_head front (order ++ [key]) ▸ hordered.erase front
  have hle : ((c.cacheMap.set key ((c.cacheMap.get key).getD [] ++ [m])).delete
      front).entries.length ≤ c.maxSize := by
    rw [← OrderedMap.length_keys, ← hrest.length_eq]
    have hsame := hordered.length_eq
    rw [OrderedMap.length_keys, hlength, List.length_cons] at hsame
    omega
  have hinsert : c.insert key m =
      { c with
        cacheMap := (c.cacheMap.set key ((c.cacheMap.get key).getD [] ++ [m])).delete front
        insertionOrder := order ++ [key] } := by
    rw [insert, reduceSizeTo]
    dsimp only
    rw [hwith, reduceFrom, if_pos (by omega), reduceFrom_of_le hle]
  have hne : front ≠ key := by
    rintro rfl
    apply hhas
    rw [OrderedMap.has_iff, ← hc.ordered.mem_iff, horder]
    exact List.mem_cons_self
  rw [hinsert]
  refine ⟨⟨hrest, hle, hc.room⟩, fun k => ?_⟩
  change ((c.cacheMap.set key _).delete front).get k = _
  rw [OrderedMap.get_delete, OrderedMap.get_set]
  by_cases hkey : key = k
  · subst hkey
    rw [if_neg hne, if_pos rfl, if_pos rfl]
    rfl
  · rw [if_neg hkey, if_neg hkey]
    rfl

/-- What an insertion leaves: what there was, with the message added, less the key evicted. -/
theorem WellFormed.insert (hc : WellFormed c) (key : Key) (m : Message) :
    WellFormed (c.insert key m) ∧
      ∀ k, (c.insert key m).find k =
        if key = k then some ((c.find key).getD [] ++ [m])
        else if c.evicts key = some k then none
        else c.find k := by
  by_cases hroom : c.cacheMap.has key ∨ c.cacheMap.entries.length < c.maxSize
  · obtain ⟨hformed, hfind⟩ := hc.insert_of_evicts_none (m := m) hroom
    refine ⟨hformed, fun k => ?_⟩
    rw [hfind, evicts, if_pos hroom, if_neg (nofun : (none : Option Key) ≠ some k)]
  · obtain ⟨hhas, hfull⟩ := not_or.mp hroom
    cases horder : c.insertionOrder with
    | nil =>
        have hlength := hc.ordered.length_eq
        have hpos := hc.room
        rw [horder, OrderedMap.length_keys, List.length_nil] at hlength
        omega
    | cons front order =>
        obtain ⟨hformed, hfind⟩ := hc.insert_of_evicts (m := m) hhas hfull horder
        refine ⟨hformed, fun k => ?_⟩
        rw [hfind, evicts, if_neg hroom, horder]
        simp only [List.head?_cons, Option.some.injEq]

end

end SlideLayerCacheMap

end CoolOnline.Slides
