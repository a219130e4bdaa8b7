import CoolOnline.Browser.SheetVisibility

/-! # Groups of columns and rows

`DimensionOutlines` of `browser/src/layer/tile/SheetGeometry.ts`. The groups of each level are read
from a text, and those that have an element of a range are found by a search for the first of them.
-/

namespace CoolOnline

namespace SheetGeometry

structure OutlineEntry where
  start : Int
  finish : Int
  hidden : Nat
  visible : Nat
deriving DecidableEq

/-- What the callback of `forEachGroupInRange` gets. -/
structure GroupCall where
  levelIdx : Nat
  groupIdx : Nat
  groupStart : Int
  groupEnd : Int
  groupHidden : Nat
deriving DecidableEq

namespace DimensionOutlines

/-- The text has the size of the group, and the entry its last element. -/
def parseEntry (collection : List Char) : Option OutlineEntry :=
  match collection.splitOn ':' with
  | start :: size :: hidden :: visible :: _ => do
      let start ← parseInt start
      let size ← parseInt size
      let hidden ← parseInt hidden
      let visible ← parseInt visible
      return ⟨start, size + (start - 1), hidden, visible⟩
  | _ => none

def parseLevel (level : List Char) : Option (List OutlineEntry) :=
  let collectionSplits := level.splitOn ','
  if collectionSplits.length < 2 then none else collectionSplits.dropLast.mapM parseEntry

/-- `load`, with the outlines that it leaves. -/
def load (encoding : List Char) : Option (List (List OutlineEntry)) :=
  let levels := encoding.splitOn ' '
  if levels.length < 2 then some [] else levels.dropLast.mapM parseLevel

/-- A group matches that has the element, or the first group behind it. -/
def groupDirection (elementIdx : Int) (prevGroup : Option OutlineEntry) (curGroup : OutlineEntry)
    (_nextGroup : Option OutlineEntry) : Ordering :=
  if elementIdx < curGroup.start then
    match prevGroup with
    | none => .eq
    | some prevGroup => if prevGroup.finish < elementIdx then .eq else .lt
  else if curGroup.finish < elementIdx then .gt else .eq

def groupCall (levelIdx groupIdx : Nat) (group : OutlineEntry) : GroupCall :=
  ⟨levelIdx, groupIdx, group.start, group.finish, group.hidden⟩

/-- The calls for the groups of a level from one on. -/
def callsFrom (finish : Int) (levelIdx : Nat) (groupsInLevel : List OutlineEntry)
    (startGroupIdx : Nat) : List GroupCall :=
  (List.range' startGroupIdx (groupsInLevel.length - startGroupIdx)).filterMap fun groupIdx =>
    (groupsInLevel[groupIdx]?).bind fun group =>
      if finish < group.start then none else some (groupCall levelIdx groupIdx group)

def callsInLevel (start finish : Int) (levelIdx : Nat) (groupsInLevel : List OutlineEntry) :
    List GroupCall :=
  match binarySearch groupsInLevel (groupDirection start) false with
  | none => []
  | some startGroupIdx =>
      match groupsInLevel[startGroupIdx]? with
      | none => []
      | some startGroup =>
          if finish < startGroup.start then []
          else callsFrom finish levelIdx groupsInLevel startGroupIdx

/-- The levels from the last to the first. -/
def forEachGroupInRange (outlines : List (List OutlineEntry)) (start finish : Int) :
    List GroupCall :=
  if outlines = [] ∨ finish < start then []
  else
    (List.range outlines.length).reverse.flatMap fun levelIdx =>
      callsInLevel start finish levelIdx (outlines[levelIdx]?.getD [])

/-! ## The first group -/

variable {groups : List OutlineEntry} {outlines : List (List OutlineEntry)} {start finish : Int}
  {levelIdx i j : Nat} {call : GroupCall}

/-- The groups of a level are ranges of elements, one behind the other. -/
structure Sorted (groups : List OutlineEntry) : Prop where
  range : ∀ group ∈ groups, group.start ≤ group.finish
  disjoint : groups.Pairwise fun front back => front.finish < back.start

def finishAt (groups : List OutlineEntry) (i : Nat) : Int := (groups[i]?).elim 0 OutlineEntry.finish

theorem finishAt_eq (hi : i < groups.length) : finishAt groups i = groups[i].finish := by
  rw [finishAt, List.getElem?_eq_getElem hi]
  rfl

theorem Sorted.finish_lt_start (h : Sorted groups) (hij : i < j) (hj : j < groups.length) :
    groups[i].finish < groups[j].start :=
  List.pairwise_iff_getElem.mp h.disjoint i j (Nat.lt_trans hij hj) hj hij

theorem Sorted.start_le_finish (h : Sorted groups) (hi : i < groups.length) :
    groups[i].start ≤ groups[i].finish :=
  h.range _ (List.getElem_mem hi)

theorem Sorted.finishAt_lt (h : Sorted groups) (hij : i < j) (hj : j < groups.length) :
    finishAt groups i < finishAt groups j := by
  rw [finishAt_eq hj, finishAt_eq (Nat.lt_trans hij hj)]
  have hlt := h.finish_lt_start hij hj
  have hle := h.start_le_finish hj
  omega

theorem Sorted.finishAt_mono (h : Sorted groups) (hij : i ≤ j) (hj : j < groups.length) :
    finishAt groups i ≤ finishAt groups j := by
  rcases Nat.eq_or_lt_of_le hij with rfl | hlt
  · exact Int.le_refl _
  · exact Int.le_of_lt (h.finishAt_lt hlt hj)

/-- The first element for which a group is the one to find: the one behind the group in front. -/
def firstFor (groups : List OutlineEntry) (start : Int) : Nat → Int
  | 0 => min start (finishAt groups 0)
  | i + 1 => finishAt groups i + 1

theorem directionAt_groupDirection (h : Sorted groups) (start : Int) (hj : j < groups.length) :
    directionAt groups (groupDirection start) j =
      BinarySearch.side (firstFor groups start) (finishAt groups) start j := by
  have hrange := h.start_le_finish hj
  rw [directionAt, List.getElem?_eq_getElem hj, BinarySearch.side, finishAt_eq hj]
  cases j with
  | zero =>
      have hno : ¬ start < firstFor groups start 0 := by
        rw [firstFor]
        omega
      rw [if_neg hno]
      simp only [groupDirection, if_true]
      split
      case isTrue hlt => rw [if_neg (by omega)]
      case isFalse => rfl
  | succ j =>
      have hprev : groups[j].finish < groups[j + 1].start :=
        h.finish_lt_start (Nat.lt_succ_self j) hj
      rw [if_neg (Nat.succ_ne_zero j), Nat.add_sub_cancel,
        List.getElem?_eq_getElem (Nat.lt_of_succ_lt hj), firstFor, finishAt_eq (Nat.lt_of_succ_lt hj)]
      simp only [groupDirection]
      by_cases hfront : groups[j].finish < start
      · rw [if_neg (by omega : ¬ start < groups[j].finish + 1), if_pos hfront]
        split
        case isTrue hlt => rw [if_neg (by omega)]
        case isFalse => rfl
      · rw [if_pos (by omega : start < groups[j + 1].start), if_neg hfront,
          if_pos (by omega : start < groups[j].finish + 1)]

theorem Sorted.firstFor_mono (h : Sorted groups) (hij : i ≤ j) (hj : j < groups.length) :
    firstFor groups start i ≤ firstFor groups start j := by
  cases i with
  | zero =>
      cases j with
      | zero => exact Int.le_refl _
      | succ j =>
          have hmono := h.finishAt_mono (Nat.zero_le j) (Nat.lt_of_succ_lt hj)
          rw [firstFor, firstFor]
          omega
  | succ i =>
      cases j with
      | zero => omega
      | succ j =>
          have hmono := h.finishAt_mono (Nat.le_of_succ_le_succ hij) (Nat.lt_of_succ_lt hj)
          rw [firstFor, firstFor]
          omega

theorem Sorted.finishAt_lt_firstFor (h : Sorted groups) (hij : i < j) (hj : j < groups.length) :
    finishAt groups i < firstFor groups start j := by
  cases j with
  | zero => omega
  | succ j =>
      have hmono := h.finishAt_mono (Nat.le_of_lt_succ hij) (Nat.lt_of_succ_lt hj)
      rw [firstFor]
      omega

/-- The search finds the first group that does not end in front of the range. -/
theorem binarySearch_eq_some (h : Sorted groups) (hi : i < groups.length)
    (hge : start ≤ finishAt groups i) (hfront : ∀ j < i, finishAt groups j < start) :
    binarySearch groups (groupDirection start) false = some i := by
  refine BinarySearch.search_eq_of_mem (fun _ hj => directionAt_groupDirection h start hj)
    (fun _ _ hij hj => h.firstFor_mono hij hj) (fun _ _ hij hj => h.finishAt_mono hij hj)
    (fun _ _ hij hj => h.finishAt_lt_firstFor hij hj) hi ?_ hge
  cases i with
  | zero => exact Int.min_le_left _ _
  | succ i => exact hfront i (Nat.lt_succ_self i)

theorem binarySearch_eq_none (h : Sorted groups)
    (hfront : ∀ j < groups.length, finishAt groups j < start) :
    binarySearch groups (groupDirection start) false = none :=
  BinarySearch.search_eq_none_of_not_mem (fun _ hj => directionAt_groupDirection h start hj)
    fun j hj _ => hfront j hj

/-! ## The calls -/

theorem mem_callsFrom : call ∈ callsFrom finish levelIdx groups i ↔
    ∃ j group, i ≤ j ∧ groups[j]? = some group ∧ group.start ≤ finish ∧
      call = groupCall levelIdx j group := by
  simp only [callsFrom, List.mem_filterMap, List.mem_range'_1, Option.bind_eq_some_iff]
  constructor
  · intro h
    rcases h with ⟨j, hj, group, hgroup, hcall⟩
    split at hcall
    case isTrue => cases hcall
    case isFalse hle => exact ⟨j, group, hj.1, hgroup, Int.not_lt.mp hle, (Option.some.inj hcall).symm⟩
  · intro h
    rcases h with ⟨j, group, hij, hgroup, hle, rfl⟩
    have hj := (List.getElem?_eq_some_iff.mp hgroup).1
    exact ⟨j, by omega, group, hgroup, if_neg (Int.not_lt.mpr hle)⟩

theorem nodup_callsFrom : (callsFrom finish levelIdx groups i).Nodup := by
  refine List.Nodup.filterMap (fun j k call hj hk => ?_) List.nodup_range'
  rcases Option.bind_eq_some_iff.mp hj with ⟨front, -, hfront⟩
  rcases Option.bind_eq_some_iff.mp hk with ⟨back, -, hback⟩
  split at hfront
  case isTrue => cases hfront
  case isFalse =>
    split at hback
    case isTrue => cases hback
    case isFalse =>
      have heq := congrArg GroupCall.groupIdx (Option.some.inj (hfront.trans hback.symm))
      exact heq

theorem nodup_callsInLevel : (callsInLevel start finish levelIdx groups).Nodup := by
  rw [callsInLevel]
  split
  · exact List.nodup_nil
  · split
    · exact List.nodup_nil
    · split
      · exact List.nodup_nil
      · exact nodup_callsFrom

/-- A level has a call for each of its groups that meets the range. -/
theorem mem_callsInLevel (h : Sorted groups) :
    call ∈ callsInLevel start finish levelIdx groups ↔
      ∃ j group, groups[j]? = some group ∧ group.start ≤ finish ∧ start ≤ group.finish ∧
        call = groupCall levelIdx j group := by
  by_cases hex : ∃ i, i < groups.length ∧ start ≤ finishAt groups i
  · -- The first group that does not end in front of the range.
    have hspec := Nat.find_spec hex
    have hmin : ∀ j < Nat.find hex, finishAt groups j < start := fun j hj => by
      have hno := Nat.find_min hex hj
      rw [not_and, Int.not_le] at hno
      exact hno (Nat.lt_trans hj hspec.1)
    generalize Nat.find hex = i at hspec hmin
    have hge : ∀ j group, groups[j]? = some group → (start ≤ group.finish ↔ i ≤ j) := by
      intro j group hgroup
      rcases List.getElem?_eq_some_iff.mp hgroup with ⟨hj, rfl⟩
      rw [← finishAt_eq hj]
      constructor
      · intro hle
        by_contra hlt
        have hfront := hmin j (Nat.lt_of_not_le hlt)
        omega
      · intro hij
        exact Int.le_trans hspec.2 (h.finishAt_mono hij hj)
    rw [callsInLevel, binarySearch_eq_some h hspec.1 hspec.2 hmin]
    simp only [List.getElem?_eq_getElem hspec.1]
    split
    case isTrue hlt =>
      refine iff_of_false List.not_mem_nil fun hcall => ?_
      rcases hcall with ⟨j, group, hgroup, hle, hfinish, -⟩
      have hij := (hge j group hgroup).mp hfinish
      rcases List.getElem?_eq_some_iff.mp hgroup with ⟨hj, rfl⟩
      rcases Nat.eq_or_lt_of_le hij with rfl | hij
      · omega
      · have hstart := h.finish_lt_start hij hj
        have hrange := h.start_le_finish hspec.1
        omega
    case isFalse =>
      rw [mem_callsFrom]
      constructor
      · intro hcall
        rcases hcall with ⟨j, group, hij, hgroup, hle, heq⟩
        exact ⟨j, group, hgroup, hle, (hge j group hgroup).mpr hij, heq⟩
      · intro hcall
        rcases hcall with ⟨j, group, hgroup, hle, hfinish, heq⟩
        exact ⟨j, group, (hge j group hgroup).mp hfinish, hgroup, hle, heq⟩
  · have hfront : ∀ j < groups.length, finishAt groups j < start := fun j hj => by
      by_contra hge
      exact hex ⟨j, hj, Int.not_lt.mp hge⟩
    rw [callsInLevel, binarySearch_eq_none h hfront]
    refine iff_of_false List.not_mem_nil fun hcall => ?_
    rcases hcall with ⟨j, group, hgroup, -, hfinish, -⟩
    rcases List.getElem?_eq_some_iff.mp hgroup with ⟨hj, rfl⟩
    have hlt := hfront j hj
    rw [finishAt_eq hj] at hlt
    omega

/-- Each group of a level that meets the range is called back once, and no other. -/
theorem forEachGroupInRange_spec (outlines : List (List OutlineEntry)) (start finish : Int)
    (hsorted : ∀ groups ∈ outlines, Sorted groups) (hle : start ≤ finish) :
    (forEachGroupInRange outlines start finish).Nodup ∧
      ∀ call, call ∈ forEachGroupInRange outlines start finish ↔
        ∃ levelIdx groups groupIdx group, outlines[levelIdx]? = some groups ∧
          groups[groupIdx]? = some group ∧ group.start ≤ finish ∧ start ≤ group.finish ∧
          call = groupCall levelIdx groupIdx group := by
  have hlevel : ∀ {call levelIdx}, levelIdx < outlines.length →
      (call ∈ callsInLevel start finish levelIdx (outlines[levelIdx]?.getD []) ↔
        ∃ groups groupIdx group, outlines[levelIdx]? = some groups ∧
          groups[groupIdx]? = some group ∧ group.start ≤ finish ∧ start ≤ group.finish ∧
          call = groupCall levelIdx groupIdx group) := by
    intro call levelIdx hlevel
    rw [List.getElem?_eq_getElem hlevel, Option.getD_some,
      mem_callsInLevel (hsorted _ (List.getElem_mem hlevel))]
    simp
  rw [forEachGroupInRange]
  split
  case isTrue hnone =>
    rcases hnone with rfl | hlt
    · simp
    · omega
  case isFalse =>
    constructor
    · refine List.nodup_flatMap.mpr ⟨fun _ _ => nodup_callsInLevel, ?_⟩
      refine (List.nodup_reverse.mpr List.nodup_range).imp_of_mem fun {i j} hi hj hne => ?_
      simp only [List.mem_reverse, List.mem_range] at hi hj
      intro call hcalli hcallj
      rcases (hlevel hi).mp hcalli with ⟨-, k, front, -, -, -, -, hfront⟩
      rcases (hlevel hj).mp hcallj with ⟨-, l, back, -, -, -, -, hback⟩
      exact hne (congrArg GroupCall.levelIdx (hfront.symm.trans hback))
    · intro call
      rw [List.mem_flatMap]
      constructor
      · intro hcall
        rcases hcall with ⟨levelIdx, hmem, hcall⟩
        simp only [List.mem_reverse, List.mem_range] at hmem
        exact ⟨levelIdx, (hlevel hmem).mp hcall⟩
      · intro hcall
        rcases hcall with ⟨levelIdx, groups, hrest⟩
        have hmem : levelIdx < outlines.length := by
          rcases hrest with ⟨-, -, hgroups, -⟩
          exact (List.getElem?_eq_some_iff.mp hgroups).1
        refine ⟨levelIdx, by simpa using hmem, (hlevel hmem).mpr ⟨groups, hrest⟩⟩

/-- One level of two groups, of which the second meets the range. -/
theorem forEachGroupInRange_spec_two :
    (forEachGroupInRange [[⟨2, 4, 0, 1⟩, ⟨7, 9, 1, 1⟩]] 5 8).Nodup ∧
      ∀ call, call ∈ forEachGroupInRange [[⟨2, 4, 0, 1⟩, ⟨7, 9, 1, 1⟩]] 5 8 ↔
        ∃ levelIdx groups groupIdx group,
          ([[⟨2, 4, 0, 1⟩, ⟨7, 9, 1, 1⟩]] : List (List OutlineEntry))[levelIdx]? = some groups ∧
          groups[groupIdx]? = some group ∧ group.start ≤ 8 ∧ 5 ≤ group.finish ∧
          call = groupCall levelIdx groupIdx group :=
  forEachGroupInRange_spec [[⟨2, 4, 0, 1⟩, ⟨7, 9, 1, 1⟩]] 5 8
    (fun groups hmem => by
      rw [List.mem_singleton.mp hmem]
      exact ⟨by decide, by decide⟩) (by decide)

end DimensionOutlines

end SheetGeometry

end CoolOnline
