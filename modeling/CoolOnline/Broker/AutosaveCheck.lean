import CoolOnline.Broker.Request

/-! # Postponing the autosave check

While an activity is under way, the poll loop of `wsd/DocumentBroker.cpp` postpones the next autosave
check by 30 seconds.
-/

namespace CoolOnline.Broker.SaveManager

variable (m : SaveManager) (now seconds t : Nat)

/-- The check interval in nanoseconds, in whole seconds as the time since the last check is. -/
def wholeCheckInterval : Nat := (m.checkInterval + 999) / 1000 * 1000000000

/-- No check is needed for the given time, and none that was not needed before. -/
structure Postponed : Prop where
  notNeeded : ∀ t, now ≤ t → t < now + seconds * 1000000000 →
    (m.postponeAutosave now seconds).needAutoSaveCheck t = false
  notEarlier : ∀ t, (m.postponeAutosave now seconds).needAutoSaveCheck t = true →
    m.needAutoSaveCheck t = true

theorem needAutoSaveCheck_iff :
    m.needAutoSaveCheck t = true ↔
      0 < m.checkInterval ∧ m.lastAutosaveCheckTime + m.wholeCheckInterval ≤ t := by
  rw [needAutoSaveCheck, wholeCheckInterval, toSeconds, Bool.and_eq_true, decide_eq_true_eq,
    decide_eq_true_eq]
  omega

/-- The check that is postponed comes when the time is over, if it came after the auto-save interval;
it comes after the check interval. -/
theorem postponeAutosave_time :
    (m.postponeAutosave now seconds).lastAutosaveCheckTime =
      max m.lastAutosaveCheckTime
        (now + seconds * 1000000000 - m.autoSaveInterval * 1000000) := by
  rw [postponeAutosave]
  split
  · dsimp only
    omega
  · omega

theorem postponeAutosave_checkInterval :
    (m.postponeAutosave now seconds).checkInterval = m.checkInterval := by
  rw [postponeAutosave]
  split
  · simp only [checkInterval]
  · rfl

theorem postponeAutosave_wholeCheckInterval :
    (m.postponeAutosave now seconds).wholeCheckInterval = m.wholeCheckInterval := by
  rw [wholeCheckInterval, postponeAutosave_checkInterval, wholeCheckInterval]

theorem postponed_notEarlier (h : (m.postponeAutosave now seconds).needAutoSaveCheck t = true) :
    m.needAutoSaveCheck t = true := by
  rw [needAutoSaveCheck_iff, postponeAutosave_checkInterval, postponeAutosave_wholeCheckInterval,
    postponeAutosave_time] at h
  rw [needAutoSaveCheck_iff]
  omega

theorem autoSaveInterval_eq_zero (h : m.checkInterval = 0) : m.autoSaveInterval = 0 := by
  rw [checkInterval] at h
  split at h
  · split at h
    · omega
    · omega
  · exact h

/-- The check is postponed as long as it should be just where the check interval, in whole seconds,
is not less than the auto-save interval or does not end before the given time does. -/
theorem postponed_iff :
    m.Postponed now seconds ↔
      seconds = 0 ∨ m.autoSaveInterval * 1000000 ≤ m.wholeCheckInterval ∨
        now + seconds * 1000000000 ≤ m.lastAutosaveCheckTime + m.wholeCheckInterval := by
  have hneeded (t : Nat) : (m.postponeAutosave now seconds).needAutoSaveCheck t = true ↔
      0 < m.checkInterval ∧ max m.lastAutosaveCheckTime
        (now + seconds * 1000000000 - m.autoSaveInterval * 1000000) + m.wholeCheckInterval ≤ t := by
    rw [needAutoSaveCheck_iff, postponeAutosave_checkInterval,
      postponeAutosave_wholeCheckInterval, postponeAutosave_time]
  constructor
  · intro h
    by_cases hzero : seconds = 0
    · exact .inl hzero
    have hlast := h.notNeeded (now + seconds * 1000000000 - 1) (by omega) (by omega)
    have hnot : ¬ (m.postponeAutosave now seconds).needAutoSaveCheck
        (now + seconds * 1000000000 - 1) = true := by
      rw [hlast]
      exact Bool.false_ne_true
    rw [hneeded] at hnot
    rcases Nat.eq_zero_or_pos m.checkInterval with hinterval | hinterval
    · rw [m.autoSaveInterval_eq_zero hinterval]
      omega
    · omega
  · intro h
    refine ⟨?_, fun t => postponed_notEarlier m now seconds t⟩
    intro t hnow ht
    apply eq_false_of_ne_true
    rw [hneeded]
    omega

/-- Both intervals as they are configured by default. -/
def byDefault : SaveManager where
  request := ⟨500, 0, 0, 0, 0⟩
  lastModifiedLocalTime := 0
  idleSaveInterval := 30000
  autoSaveInterval := 300000
  savingTimeout := 0
  lastAutosaveCheckTime := 0
  version := 0

/-- The check is needed again at once. -/
theorem not_postponed_byDefault : ¬ byDefault.Postponed 299000000000 30 := by
  intro h
  have hneeded := h.notNeeded 299000000000 (by decide) (by decide)
  exact absurd hneeded (by decide)

end CoolOnline.Broker.SaveManager
