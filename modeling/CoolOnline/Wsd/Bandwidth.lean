import CoolOnline.Library.History
import Mathlib.Algebra.Order.Ring.Int

/-! # Bandwidth of a document

What `DocumentBroker::pollThread` of `wsd/DocumentBroker.cpp` tells the admin of the bytes that the
sessions of a document have sent and received. The samples come with the last one first.
-/

namespace CoolOnline.Bandwidth

/-- What a session has sent and received. -/
structure IOStats where
  sent : UInt64
  recv : UInt64
deriving DecidableEq

/-- `DocumentBroker::getIOStats`: the totals over the sessions that there are. -/
def getIOStats (sessions : List IOStats) : IOStats :=
  sessions.foldl (fun total stats => ⟨total.sent + stats.sent, total.recv + stats.recv⟩) ⟨0, 0⟩

structure Notified where
  adminSent : UInt64
  adminRecv : UInt64
deriving DecidableEq

/-- The part of `pollThread` for the bandwidth, with what is given to `Admin::addBytes`. -/
def update (admin : Notified) (sessions : List IOStats) : IOStats × Notified :=
  let total := getIOStats sessions
  let deltaRecv : UInt64 := 0
  -- connection drop transiently reduces this.
  let (deltaSent, adminSent) :=
    if total.sent > admin.adminSent then (total.sent - admin.adminSent, total.sent)
    else (0, admin.adminSent)
  let (deltaRecv, adminRecv) :=
    if total.recv > deltaRecv then (total.recv - admin.adminRecv, total.recv)
    else (deltaRecv, admin.adminRecv)
  (⟨deltaSent, deltaRecv⟩, ⟨adminSent, adminRecv⟩)

/-- What the admin has been told after the samples. -/
def after : List (List IOStats) → Notified
  | [] => ⟨0, 0⟩
  | sessions :: older => (update (after older) sessions).2

def deltas : List (List IOStats) → List IOStats
  | [] => []
  | sessions :: older => (update (after older) sessions).1 :: deltas older

/-- The largest total that has been seen. -/
def largest (count : IOStats → UInt64) (samples : List (List IOStats)) : Nat :=
  (samples.map fun sessions => (count (getIOStats sessions)).toNat).foldr max 0

/-- What is told is at most what the total has grown by, and nothing is taken from less. -/
structure StepAccounts (sessions : List IOStats) (older : List (List IOStats)) : Prop where
  sent : (update (after older) sessions).1.sent.toNat ≤
    (getIOStats sessions).sent.toNat - largest IOStats.sent older
  recv : (update (after older) sessions).1.recv.toNat ≤
    (getIOStats sessions).recv.toNat - largest IOStats.recv older
  sentNoUnderflow : (getIOStats sessions).sent > (after older).adminSent →
    (after older).adminSent ≤ (getIOStats sessions).sent
  recvNoUnderflow : (getIOStats sessions).recv > 0 →
    (after older).adminRecv ≤ (getIOStats sessions).recv

structure Accounts (samples : List (List IOStats)) : Prop where
  each : Along StepAccounts samples
  sent : ((deltas samples).map fun delta => delta.sent.toNat).sum = largest IOStats.sent samples
  recv : ((deltas samples).map fun delta => delta.recv.toNat).sum = largest IOStats.recv samples

/-- No bytes at all have been received, or no fewer than ever before. -/
def RecvGrows (sessions : List IOStats) (older : List (List IOStats)) : Prop :=
  (getIOStats sessions).recv = 0 ∨ largest IOStats.recv older ≤ (getIOStats sessions).recv.toNat

/-! ## Each direction -/

section

variable (admin : Notified) (sessions : List IOStats) {older samples : List (List IOStats)}

/-- What is told of a direction is by how much the total is more than what was told before, or
nothing where it is not more. -/
def Tells (told total told' delta : UInt64) : Prop :=
  told ≤ total ∧ delta = total - told ∧ told' = total ∨ total ≤ told ∧ delta = 0 ∧ told' = told

theorem Tells.toNat {told total told' delta : UInt64} (h : Tells told total told' delta) :
    told'.toNat = max total.toNat told.toNat ∧
      delta.toNat + told.toNat = max total.toNat told.toNat := by
  rcases h with ⟨hle, rfl, rfl⟩ | ⟨hle, rfl, rfl⟩
  · rw [UInt64.toNat_sub_of_le _ _ hle]
    have hle' := UInt64.le_iff_toNat_le.mp hle
    omega
  · rw [UInt64.toNat_zero]
    have hle' := UInt64.le_iff_toNat_le.mp hle
    omega

theorem tells_sent : Tells admin.adminSent (getIOStats sessions).sent
    (update admin sessions).2.adminSent (update admin sessions).1.sent := by
  simp only [update]
  split
  case isTrue hmore => exact .inl ⟨UInt64.le_of_lt hmore, rfl, rfl⟩
  case isFalse hless => exact .inr ⟨UInt64.not_lt.mp hless, rfl, rfl⟩

theorem tells_recv
    (h : (getIOStats sessions).recv > 0 → admin.adminRecv ≤ (getIOStats sessions).recv) :
    Tells admin.adminRecv (getIOStats sessions).recv (update admin sessions).2.adminRecv
      (update admin sessions).1.recv := by
  simp only [update]
  split
  case isTrue hmore => exact .inl ⟨h hmore, rfl, rfl⟩
  case isFalse hless =>
    exact .inr ⟨UInt64.le_trans (UInt64.not_lt.mp hless) UInt64.zero_le, rfl, rfl⟩

theorem largest_cons (count : IOStats → UInt64) :
    largest count (sessions :: older) =
      max (count (getIOStats sessions)).toNat (largest count older) := rfl

variable {admin sessions}

/-- What is told of the bytes sent adds up to the largest total. -/
theorem sent_after (samples : List (List IOStats)) :
    (after samples).adminSent.toNat = largest IOStats.sent samples ∧
      ((deltas samples).map fun delta => delta.sent.toNat).sum = largest IOStats.sent samples := by
  induction samples with
  | nil => exact ⟨rfl, rfl⟩
  | cons sessions older ih =>
      obtain ⟨htold, hsum⟩ := ih
      have hstep := (tells_sent (after older) sessions).toNat
      rw [htold] at hstep
      rw [after, deltas, List.map_cons, List.sum_cons, hsum, largest_cons]
      exact hstep

/-- The total is no less than what was told. -/
theorem told_le_of_recvGrows (h : RecvGrows sessions older)
    (htold : (after older).adminRecv.toNat = largest IOStats.recv older)
    (hmore : (getIOStats sessions).recv > 0) :
    (after older).adminRecv ≤ (getIOStats sessions).recv := by
  have hle := h.resolve_left fun hzero => by simp [hzero] at hmore
  rw [UInt64.le_iff_toNat_le, htold]
  exact hle

theorem recv_after (h : Along RecvGrows samples) :
    (after samples).adminRecv.toNat = largest IOStats.recv samples ∧
      ((deltas samples).map fun delta => delta.recv.toNat).sum = largest IOStats.recv samples := by
  induction samples with
  | nil => exact ⟨rfl, rfl⟩
  | cons sessions older ih =>
      obtain ⟨htold, hsum⟩ := ih h.2
      have hstep := (tells_recv (after older) sessions (told_le_of_recvGrows h.1 htold)).toNat
      rw [htold] at hstep
      rw [after, deltas, List.map_cons, List.sum_cons, hsum, largest_cons]
      exact hstep

theorem stepAccounts (h : RecvGrows sessions older) (holder : Along RecvGrows older) :
    StepAccounts sessions older := by
  have htoldSent := (sent_after older).1
  have htoldRecv := (recv_after holder).1
  have hadminLe := told_le_of_recvGrows h htoldRecv
  have hsent := (tells_sent (after older) sessions).toNat.2
  have hrecv := (tells_recv (after older) sessions hadminLe).toNat.2
  refine ⟨?_, ?_, fun hmore => UInt64.le_of_lt hmore, hadminLe⟩
  · rw [htoldSent] at hsent
    omega
  · rw [htoldRecv] at hrecv
    omega

/-- Where nothing is taken from less, the total of received bytes has grown. -/
theorem recvGrows_of_along (h : Along StepAccounts samples) : Along RecvGrows samples := by
  induction samples with
  | nil => trivial
  | cons sessions older ih =>
      have holder := ih h.2
      refine ⟨?_, holder⟩
      by_cases hzero : (getIOStats sessions).recv = 0
      · exact .inl hzero
      · have hadminLe := h.1.recvNoUnderflow (UInt64.pos_iff_ne_zero.mpr hzero)
        have hle := UInt64.le_iff_toNat_le.mp hadminLe
        rw [(recv_after holder).1] at hle
        exact .inr hle

end

/-- The bytes are accounted for as long as the total of received bytes does not fall. -/
theorem accounts_iff (samples : List (List IOStats)) :
    Accounts samples ↔ Along RecvGrows samples := by
  constructor
  · intro h
    exact recvGrows_of_along h.each
  · intro hgrows
    have heach : Along StepAccounts samples := by
      induction samples with
      | nil => trivial
      | cons sessions older ih => exact ⟨stepAccounts hgrows.1 hgrows.2, ih hgrows.2⟩
    exact ⟨heach, (sent_after samples).2, (recv_after hgrows).2⟩

/-- One of two sessions leaves. -/
theorem not_accounts_sessionLeaves : ¬ Accounts [[⟨10, 5⟩], [⟨10, 5⟩, ⟨20, 7⟩]] := by
  intro h
  exact absurd h.each.1.recv (by decide)

end CoolOnline.Bandwidth
