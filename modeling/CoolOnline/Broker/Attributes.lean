import Mathlib.Data.List.Basic

/-! # Storage attributes

`StorageBase::Attributes` of `wsd/Storage.hpp`: what the upload of a version tells the host.
-/

namespace CoolOnline.Broker

structure Attributes where
  extendedData : String
  forced : Bool
  isUserModified : Bool
  isAutosave : Bool
  isExitSave : Bool
deriving DecidableEq, Repr

namespace Attributes

/-- The value after construction and after `reset`. -/
def empty : Attributes := ⟨"", false, false, false, false⟩

/-- `merge`: a flag set in either is set; extended data of `lhs` wins unless it is empty. -/
def merge (attrs lhs : Attributes) : Attributes where
  forced := if lhs.forced then true else attrs.forced
  isUserModified := if lhs.isUserModified then true else attrs.isUserModified
  isAutosave := if lhs.isAutosave then true else attrs.isAutosave
  isExitSave := if lhs.isExitSave then true else attrs.isExitSave
  extendedData := if lhs.extendedData ≠ "" then lhs.extendedData else attrs.extendedData

/-- Every flag of `a` is set in `b`. -/
def FlagsIn (a b : Attributes) : Prop :=
  (a.forced = true → b.forced = true) ∧ (a.isUserModified = true → b.isUserModified = true) ∧
    (a.isAutosave = true → b.isAutosave = true)

instance (a b : Attributes) : Decidable (a.FlagsIn b) := inferInstanceAs (Decidable (_ ∧ _))

theorem FlagsIn.refl (a : Attributes) : a.FlagsIn a := ⟨id, id, id⟩

theorem FlagsIn.trans {a b c : Attributes} (hab : a.FlagsIn b) (hbc : b.FlagsIn c) :
    a.FlagsIn c :=
  ⟨fun h => hbc.1 (hab.1 h), fun h => hbc.2.1 (hab.2.1 h), fun h => hbc.2.2 (hab.2.2 h)⟩

@[simp] theorem merge_empty (a : Attributes) : a.merge empty = a := by
  simp [merge, empty]

@[simp] theorem empty_merge (a : Attributes) : empty.merge a = a := by
  cases a
  simp [merge, empty]

theorem merge_assoc (a b c : Attributes) : (a.merge b).merge c = a.merge (b.merge c) := by
  simp only [merge, mk.injEq]
  refine ⟨?_, ?_, ?_, ?_, ?_⟩
  · by_cases hc : c.extendedData = "" <;> simp [hc]
  · by_cases hc : c.forced = true <;> simp [hc]
  · by_cases hc : c.isUserModified = true <;> simp [hc]
  · by_cases hc : c.isAutosave = true <;> simp [hc]
  · by_cases hc : c.isExitSave = true <;> simp [hc]

/-- Unless both have extended data, the order of merging does not matter. -/
theorem merge_comm {a b : Attributes} (h : a.extendedData = "" ∨ b.extendedData = "" ∨
    a.extendedData = b.extendedData) : a.merge b = b.merge a := by
  simp only [merge, mk.injEq]
  refine ⟨?_, ?_, ?_, ?_, ?_⟩
  · rcases h with h | h | h
    · by_cases hb : b.extendedData = "" <;> simp [h, hb]
    · by_cases ha : a.extendedData = "" <;> simp [h, ha]
    · simp [h]
  · cases a.forced <;> cases b.forced <;> rfl
  · cases a.isUserModified <;> cases b.isUserModified <;> rfl
  · cases a.isAutosave <;> cases b.isAutosave <;> rfl
  · cases a.isExitSave <;> cases b.isExitSave <;> rfl

/-- What is recorded for a save; `isExitSave` is set by the upload itself. -/
def recorded (a : Attributes) : Attributes := { a with isExitSave := false }

@[simp] theorem recorded_empty : empty.recorded = empty := rfl

theorem recorded_merge (a b : Attributes) :
    (a.merge b).recorded = a.recorded.merge b.recorded := rfl

/-- The flags and extended data of `a` are in `b`. -/
def ContainedIn (a b : Attributes) : Prop :=
  a.FlagsIn b ∧ (a.extendedData ≠ "" → b.extendedData = a.extendedData)

end Attributes

end CoolOnline.Broker
