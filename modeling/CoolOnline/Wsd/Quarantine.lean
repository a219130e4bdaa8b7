import CoolOnline.Library.OrderedMap
import Mathlib.Data.List.Infix

/-! # Quarantined files

The map of quarantined versions in `wsd/QuarantineUtil.cpp`, and how old versions of a document are
deleted. Each document has its versions from the oldest to the newest.
-/

namespace CoolOnline

namespace Quarantine

structure Entry where
  fullPath : String
  docKey : String
  filename : String
  secondsSinceEpoch : Nat
  size : UInt64
deriving DecidableEq

/-- The versions of a document are sorted by age. -/
def Sorted (container : List Entry) : Prop :=
  container.Pairwise (·.secondsSinceEpoch ≤ ·.secondsSinceEpoch)

end Quarantine

open Quarantine

/-- The static members of `Quarantine`. -/
structure Quarantine where
  quarantineMap : OrderedMap String (List Entry)
  quarantinePath : String
  maxSizeBytes : UInt64
  maxAgeSecs : Nat
  maxVersions : Nat
  sorted : ∀ docKey container, quarantineMap.get docKey = some container → Sorted container

namespace Quarantine

variable {q : Quarantine} {docKey : String} {oldestTimestamp : Nat}

def isEnabled (q : Quarantine) : Bool := q.quarantinePath ≠ ""

/-- `quarantineMap[docKey]`, which is empty for a new key. -/
def container (q : Quarantine) (docKey : String) : List Entry :=
  (q.quarantineMap.get docKey).getD []

/-- The loop over the versions from `i` on. -/
def ageLoop (oldestTimestamp : Nat) : List Entry → Nat → Nat → Nat
  | [], _, excessAge => excessAge
  | entry :: rest, i, excessAge =>
      -- These are recent-enough versions.
      if oldestTimestamp ≤ entry.secondsSinceEpoch then excessAge
      else ageLoop oldestTimestamp rest (i + 1) i

def excessAge (q : Quarantine) (docKey : String) (oldestTimestamp : Nat) : Nat :=
  let excessVersions := (q.container docKey).length - q.maxVersions
  ageLoop oldestTimestamp ((q.container docKey).drop excessVersions) excessVersions 0

theorem sorted_container (q : Quarantine) (docKey : String) : Sorted (q.container docKey) := by
  rw [container]
  cases h : q.quarantineMap.get docKey with
  | none => exact List.Pairwise.nil
  | some container => exact q.sorted docKey container h

/-- The map with another container for a document. -/
def setContainer (q : Quarantine) (docKey : String) (container : List Entry)
    (h : Sorted container) : Quarantine :=
  { q with
    quarantineMap := q.quarantineMap.set docKey container
    sorted := by
      intro key other hget
      rw [OrderedMap.get_set] at hget
      split at hget
      · cases hget
        exact h
      · exact q.sorted key other hget }

/-- The quarantine and the files that are removed. -/
def deleteOldQuarantineVersions (q : Quarantine) (docKey : String) (oldestTimestamp : Nat) :
    Quarantine × List String :=
  if !q.isEnabled then (q, [])
  else
    let excessAge := q.excessAge docKey oldestTimestamp
    (q.setContainer docKey ((q.container docKey).drop excessAge)
      ((q.sorted_container docKey).sublist (List.drop_sublist _ _)),
      ((q.container docKey).take excessAge).map Entry.fullPath)

/-! ## Which versions stay -/

/-- The longest suffix of the versions with not more than so many, all recent. -/
structure LongestRecent (maxVersions oldestTimestamp : Nat) (versions kept : List Entry) : Prop where
  suffix : kept <:+ versions
  length : kept.length ≤ maxVersions
  recent : ∀ entry ∈ kept, oldestTimestamp ≤ entry.secondsSinceEpoch
  longest : ∀ other, other <:+ versions → other.length ≤ maxVersions →
    (∀ entry ∈ other, oldestTimestamp ≤ entry.secondsSinceEpoch) → other.length ≤ kept.length

/-- The document keeps the longest suffix, the files of the others are removed, and no other
document changes. -/
structure Retains (q : Quarantine) (docKey : String) (oldestTimestamp : Nat) : Prop where
  longest : LongestRecent q.maxVersions oldestTimestamp (q.container docKey)
    ((q.deleteOldQuarantineVersions docKey oldestTimestamp).1.container docKey)
  files : ∃ removed,
    q.container docKey =
      removed ++ (q.deleteOldQuarantineVersions docKey oldestTimestamp).1.container docKey ∧
      (q.deleteOldQuarantineVersions docKey oldestTimestamp).2 = removed.map Entry.fullPath
  others : ∀ other, other ≠ docKey →
    (q.deleteOldQuarantineVersions docKey oldestTimestamp).1.quarantineMap.get other =
      q.quarantineMap.get other

/-- The loop ends with the number of a version that is too old, not with how many there are. -/
theorem ageLoop_eq (oldestTimestamp : Nat) (versions : List Entry) (i excessAge : Nat) :
    ageLoop oldestTimestamp versions i excessAge = excessAge ∨
      ∃ j entry, versions[j]? = some entry ∧ entry.secondsSinceEpoch < oldestTimestamp ∧
        ageLoop oldestTimestamp versions i excessAge = i + j := by
  induction versions generalizing i excessAge with
  | nil => exact .inl rfl
  | cons entry rest ih =>
      rw [ageLoop]
      split
      case isTrue => exact .inl rfl
      case isFalse hold =>
        right
        rcases ih (i + 1) i with heq | ⟨j, next, hnext, hlt, heq⟩
        · exact ⟨0, entry, rfl, Nat.lt_of_not_le hold, heq⟩
        · exact ⟨j + 1, next, hnext, hlt, by omega⟩

theorem excessAge_eq (q : Quarantine) (docKey : String) (oldestTimestamp : Nat) :
    q.excessAge docKey oldestTimestamp = 0 ∨
      ∃ entry, (q.container docKey)[q.excessAge docKey oldestTimestamp]? = some entry ∧
        entry.secondsSinceEpoch < oldestTimestamp := by
  rw [excessAge]
  rcases ageLoop_eq oldestTimestamp
    ((q.container docKey).drop ((q.container docKey).length - q.maxVersions))
    ((q.container docKey).length - q.maxVersions) 0 with hzero | ⟨j, entry, hentry, hlt, heq⟩
  · exact .inl hzero
  · rw [List.getElem?_drop] at hentry
    exact .inr ⟨entry, heq ▸ hentry, hlt⟩

theorem container_setContainer {versions : List Entry} (h : Sorted versions) :
    (q.setContainer docKey versions h).container docKey = versions := by
  rw [container, setContainer, OrderedMap.get_set, if_pos rfl]
  rfl

/-- What stays of a document. -/
theorem container_deleteOldQuarantineVersions :
    (q.deleteOldQuarantineVersions docKey oldestTimestamp).1.container docKey =
      if q.isEnabled then (q.container docKey).drop (q.excessAge docKey oldestTimestamp)
      else q.container docKey := by
  rw [deleteOldQuarantineVersions]
  cases q.isEnabled with
  | false => rfl
  | true =>
      exact container_setContainer
        ((q.sorted_container docKey).sublist (List.drop_sublist (q.excessAge docKey _) _))

theorem retains_of_eq_zero (hzero : q.excessAge docKey oldestTimestamp = 0)
    (hlength : (q.container docKey).length ≤ q.maxVersions)
    (hrecent : ∀ entry ∈ q.container docKey, oldestTimestamp ≤ entry.secondsSinceEpoch) :
    q.Retains docKey oldestTimestamp := by
  have hkept :
      (q.deleteOldQuarantineVersions docKey oldestTimestamp).1.container docKey =
        q.container docKey := by
    rw [container_deleteOldQuarantineVersions, hzero]
    simp
  constructor
  · rw [hkept]
    exact ⟨List.suffix_rfl, hlength, hrecent, fun _ hsuffix _ _ => hsuffix.length_le⟩
  · refine ⟨[], by rw [hkept]; rfl, ?_⟩
    rw [deleteOldQuarantineVersions]
    split
    · rfl
    · simp [hzero]
  · intro other hne
    rw [deleteOldQuarantineVersions]
    split
    · rfl
    · exact OrderedMap.get_set_ne hne.symm

/-- What stays is the longest suffix if and only if there is nothing to delete. -/
theorem retains_iff (q : Quarantine) (docKey : String) (oldestTimestamp : Nat) :
    q.Retains docKey oldestTimestamp ↔ (q.container docKey).length ≤ q.maxVersions ∧
      ∀ entry ∈ q.container docKey, oldestTimestamp ≤ entry.secondsSinceEpoch := by
  constructor
  · intro h
    have hlongest := h.longest
    rw [container_deleteOldQuarantineVersions] at hlongest
    split at hlongest
    case isTrue =>
      rcases q.excessAge_eq docKey oldestTimestamp with hzero | ⟨entry, hentry, hlt⟩
      · rw [hzero, List.drop_zero] at hlongest
        exact ⟨hlongest.length, hlongest.recent⟩
      · -- The last version that is too old is still there.
        have hmem : entry ∈ (q.container docKey).drop (q.excessAge docKey oldestTimestamp) := by
          refine List.mem_of_getElem? (i := 0) ?_
          rw [List.getElem?_drop]
          exact hentry
        exact absurd hlt (Nat.not_lt.mpr (hlongest.recent entry hmem))
    case isFalse => exact ⟨hlongest.length, hlongest.recent⟩
  · intro h
    refine retains_of_eq_zero ?_ h.1 h.2
    rcases q.excessAge_eq docKey oldestTimestamp with hzero | ⟨entry, hentry, hlt⟩
    · exact hzero
    · exact absurd hlt (Nat.not_lt.mpr (h.2 entry (List.mem_of_getElem? hentry)))

/-- One document with three versions, of which two may stay. -/
def threeVersions : Quarantine where
  quarantineMap := OrderedMap.empty.set "doc"
    [⟨"/q/doc/10_1_a", "doc", "a", 10, 5⟩, ⟨"/q/doc/20_1_a", "doc", "a", 20, 5⟩,
      ⟨"/q/doc/30_1_a", "doc", "a", 30, 5⟩]
  quarantinePath := "/q"
  maxSizeBytes := 100
  maxAgeSecs := 60
  maxVersions := 2
  sorted := by
    intro docKey container h
    rw [OrderedMap.get_set] at h
    split at h
    · cases h
      simp [Sorted]
    · cases h

example : (threeVersions.deleteOldQuarantineVersions "doc" 0).2 = [] := by decide +kernel

/-- All three versions stay. -/
theorem not_retains_threeVersions : ¬ threeVersions.Retains "doc" 0 := by
  intro h
  have hlength : ((threeVersions.deleteOldQuarantineVersions "doc" 0).1.container "doc").length =
      3 := by
    decide +kernel
  have hle := h.longest.length
  rw [hlength] at hle
  exact absurd hle (by decide)

end Quarantine

end CoolOnline
