import Mathlib.Data.List.Basic

/-! # Client sessions

What the broker reads of `ClientSession`, and the session map `_sessions` as a list in map
order.
-/

namespace CoolOnline.Broker

/-- `ClientSession::SessionState`. -/
inductive SessionState
  | detached
  | loading
  | live
  | waitDisconnect
deriving DecidableEq, Repr

structure Session where
  id : Nat
  readOnly : Bool
  allowChangeComments : Bool
  allowManageRedlines : Bool
  writable : Bool
  state : SessionState
  closeFrame : Bool
  expired : Bool
  documentOwner : Bool
deriving DecidableEq, Repr

namespace Session

def isEditable (s : Session) : Bool :=
  !s.readOnly || s.allowChangeComments || s.allowManageRedlines

def isViewLoaded (s : Session) : Bool := s.state == .live

def isLive (s : Session) : Bool := s.isViewLoaded && !s.closeFrame

def inWaitDisconnected (s : Session) : Bool := s.state == .waitDisconnect

/-- `setWritable(false)`. -/
def setReadOnly (s : Session) : Session :=
  { s with writable := false, readOnly := true, allowChangeComments := false
           allowManageRedlines := false }

/-- A session that can save with a valid authorization token. -/
def canWrite (s : Session) : Bool := s.isViewLoaded && s.isEditable && !s.expired

end Session

/-- The loop of `getWriteableSession`, with the session chosen so far. -/
def pickWriteable : Option Session → List Session → Option Session
  | saving, [] => saving
  | saving, session :: rest =>
      let saving := if saving.isNone || session.canWrite then some session else saving
      if session.documentOwner then some session else pickWriteable saving rest

/-- `getWriteableSession`. -/
def getWriteableSession (sessions : List Session) : Option Session := pickWriteable none sessions

theorem pickWriteable_mem {saving : Option Session} {sessions : List Session} {session : Session}
    (h : pickWriteable saving sessions = some session) :
    saving = some session ∨ session ∈ sessions := by
  induction sessions generalizing saving with
  | nil => exact .inl h
  | cons x rest ih =>
      simp only [pickWriteable] at h
      split at h
      · exact .inr (by simp_all)
      · rcases ih h with hs | hs
        · split at hs
          · exact .inr (by simp_all)
          · exact .inl hs
        · exact .inr (List.mem_cons_of_mem x hs)

theorem getWriteableSession_mem {sessions : List Session} {session : Session}
    (h : getWriteableSession sessions = some session) : session ∈ sessions := by
  rcases pickWriteable_mem h with h | h
  · cases h
  · exact h

/-- `getFirstAuthorizedSession`. -/
def getFirstAuthorizedSession (sessions : List Session) : Option Session :=
  sessions.find? fun session => !session.expired

def findSession (sessions : List Session) (id : Nat) : Option Session :=
  sessions.find? fun session => session.id == id

theorem findSession_isSome {sessions : List Session} {session : Session}
    (h : session ∈ sessions) : (findSession sessions session.id).isSome = true := by
  simp only [findSession, List.find?_isSome]
  exact ⟨session, h, beq_self_eq_true _⟩

theorem findSession_mem {sessions : List Session} {id : Nat} {session : Session}
    (h : findSession sessions id = some session) : session ∈ sessions :=
  List.mem_of_find?_eq_some h

def haveAnotherEditableSession (sessions : List Session) (id : Nat) : Bool :=
  sessions.any fun session => session.id != id && session.isViewLoaded && session.isEditable

def countActiveSessions (sessions : List Session) : Nat :=
  (sessions.filter Session.isLive).length

def countLoadingSessions (sessions : List Session) : Nat :=
  (sessions.filter fun session => !session.isLive && !session.inWaitDisconnected).length

/-- Some writable session has a valid authorization. -/
def haveAuthorizedWriter (sessions : List Session) : Bool := sessions.any Session.canWrite

/-- The session chosen for saving and uploading has a valid authorization. -/
def writerIsAuthorized (sessions : List Session) : Bool :=
  (getWriteableSession sessions).any fun session => !session.expired

def updateSession (sessions : List Session) (id : Nat) (f : Session → Session) : List Session :=
  sessions.map fun session => if session.id == id then f session else session

/-! ## The session chosen to write -/

section

variable {saving : Option Session} {sessions : List Session}

/-- The first document owner is taken whatever it can do. -/
theorem pickWriteable_of_owner {owner : Session}
    (h : sessions.find? Session.documentOwner = some owner) :
    pickWriteable saving sessions = some owner := by
  induction sessions generalizing saving with
  | nil => cases h
  | cons session rest ih =>
      rw [pickWriteable]
      cases howner : session.documentOwner with
      | true =>
          rw [List.find?_cons_of_pos howner] at h
          exact h
      | false =>
          rw [List.find?_cons_of_neg (by simp [howner])] at h
          exact ih h

/-- Without an owner a session that can write is taken once there is one, and kept for another. -/
theorem pickWriteable_of_no_owner (h : sessions.find? Session.documentOwner = none)
    (hcapable : (∃ session, saving = some session ∧ session.canWrite = true) ∨
      haveAuthorizedWriter sessions = true) :
    ∃ session, pickWriteable saving sessions = some session ∧ session.canWrite = true := by
  induction sessions generalizing saving with
  | nil => exact hcapable.resolve_right (by simp [haveAuthorizedWriter])
  | cons session rest ih =>
      have howner : ¬ session.documentOwner = true :=
        List.find?_eq_none.mp h session List.mem_cons_self
      rw [List.find?_cons_of_neg howner] at h
      rw [pickWriteable, if_neg howner]
      apply ih h
      cases hcan : session.canWrite with
      | true => exact .inl ⟨session, by simp, hcan⟩
      | false =>
          rcases hcapable with ⟨kept, rfl, hkept⟩ | hany
          · exact .inl ⟨kept, by simp, hkept⟩
          · right
            simpa [haveAuthorizedWriter, hcan] using hany

/-- If some session is loaded, editable and authorized, the session chosen is. -/
def ChoosesCapable (sessions : List Session) : Prop :=
  (∃ session ∈ sessions,
    session.isViewLoaded = true ∧ session.isEditable = true ∧ session.expired = false) →
  ∃ session, getWriteableSession sessions = some session ∧
    session.isViewLoaded = true ∧ session.isEditable = true ∧ session.expired = false

theorem canWrite_iff {session : Session} :
    session.canWrite = true ↔
      session.isViewLoaded = true ∧ session.isEditable = true ∧ session.expired = false := by
  simp only [Session.canWrite, Bool.and_eq_true, Bool.not_eq_eq_eq_not, Bool.not_true, and_assoc]

theorem choosesCapable_iff_of_owner (sessions : List Session) :
    ChoosesCapable sessions ↔
      ((sessions.find? Session.documentOwner).all Session.canWrite = true ∨
        haveAuthorizedWriter sessions = false) := by
  have hany : haveAuthorizedWriter sessions = true ↔ ∃ session ∈ sessions,
      session.isViewLoaded = true ∧ session.isEditable = true ∧ session.expired = false := by
    simp only [haveAuthorizedWriter, List.any_eq_true, canWrite_iff]
  rw [ChoosesCapable, ← hany]
  simp only [← canWrite_iff]
  cases hcapable : haveAuthorizedWriter sessions with
  | false => simp
  | true =>
      cases howner : sessions.find? Session.documentOwner with
      | none =>
          have hchosen : ∃ session, pickWriteable none sessions = some session ∧
              session.canWrite = true := pickWriteable_of_no_owner howner (.inr hcapable)
          simpa [getWriteableSession] using hchosen
      | some owner => simp [getWriteableSession, pickWriteable_of_owner howner]

/-- The owner of the document can only read it, and another session can write. -/
theorem read_only_owner_is_chosen :
    ¬ ∀ sessions : List Session, ChoosesCapable sessions := by
  intro hall
  obtain ⟨session, hchosen, -, heditable, -⟩ := hall
    [⟨0, false, false, false, true, .live, false, false, false⟩,
      ⟨1, true, false, false, false, .live, false, false, true⟩]
    ⟨_, List.mem_cons_self, by decide⟩
  cases hchosen
  exact absurd heditable (by decide)

end

end CoolOnline.Broker
