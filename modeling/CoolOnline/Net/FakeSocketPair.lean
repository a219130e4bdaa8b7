import CoolOnline.Net.FakeSocket
import Mathlib.Data.Bool.Basic
import Mathlib.Data.List.Infix

/-! # The two ends of a pair

What has been written, read and closed at the ends of one pair, as the calls that have returned show
it, and what each operation on the pair keeps of it.
-/

namespace CoolOnline.FakeSocket

section Observations

variable (n : Int)

def Report.writes : Report → List Record
  | (.write fd buf, .wrote _) => if fd = n then [buf] else []
  | _ => []

def Report.reads : Report → List Record
  | (.read fd _, .record r) => if fd = n then [r] else []
  | _ => []

/-- The end `n` was closed, or shut down. -/
def Report.leaves : Report → Bool
  | (.close fd, .ok) => fd = n
  | (.shutdown fd, .ok) => fd = n
  | _ => false

/-- The second end `n` was connected to the first. -/
def Report.joins : Report → Bool
  | (.accept4 _, .fd fd) => fd = n
  | (.pipe2, .pipe _ fd) => fd = n
  | _ => false

/-- The records written at `n`, in order. -/
def written : List Report → List Record
  | [] => []
  | e :: older => written older ++ e.writes n

/-- The records that reads at `n` have returned, in order. -/
def received : List Report → List Record
  | [] => []
  | e :: older => received older ++ e.reads n

/-- The end that `k` of pair `i` is connected to has been closed or shut down. -/
def PeerGone (h : List Report) (i : Nat) (k : Bool) : Prop :=
  Pending (fun e => e.leaves (number i (!k)) = true) (fun e => e.joins (number i true) = true) h

end Observations

/-- Open, not listening, and never connected. -/
def FakeSocketPair.fresh (pair : FakeSocketPair) : Bool :=
  pair.fd false ≠ -1 && pair.fd true = -1 && !pair.listening && !pair.readable false

/-! ## Numbers -/

theorem number_inj {i j : Nat} {k l : Bool} (h : number i k = number j l) : i = j ∧ k = l := by
  cases k <;> cases l <;> simp only [number, Bool.toNat_false, Bool.toNat_true] at h <;>
    simp only [and_true, reduceCtorEq, and_false] <;> omega

theorem number_ne {i j : Nat} (h : j ≠ i) (k l : Bool) : number j k ≠ number i l :=
  fun heq => h (number_inj heq).1

@[simp] theorem number_not_ne (i : Nat) (k : Bool) : number i (!k) ≠ number i k := by
  intro heq
  exact absurd (number_inj heq).2 (by simp)

@[simp] theorem number_nonneg (i : Nat) (k : Bool) : 0 ≤ number i k := by
  simp only [number]
  omega

@[simp] theorem number_ne_closed (i : Nat) (k : Bool) : number i k ≠ -1 := by
  have h := number_nonneg i k
  omega

theorem number_true (i : Nat) : number i true = number i false + 1 := by
  simp [number]

theorem lookup_eq_some {fds : List FakeSocketPair} {fd : Int} {i : Nat} {k : Bool}
    {pair : FakeSocketPair} :
    lookup fds fd = some (i, k, pair) ↔ fd = number i k ∧ fds[i]? = some pair := by
  rw [lookup]
  constructor
  · intro h
    split_ifs at h with hneg
    obtain ⟨p, hp, heq⟩ := Option.map_eq_some_iff.mp h
    cases heq
    refine ⟨?_, hp⟩
    rcases Nat.mod_two_eq_zero_or_one fd.toNat with h0 | h1
    · simp only [number, h0, Nat.zero_ne_one, decide_false, Bool.toNat_false]
      omega
    · simp only [number, h1, decide_true, Bool.toNat_true]
      omega
  · rintro ⟨rfl, hp⟩
    have hdiv : (number i k).toNat / 2 = i := by
      cases k <;> simp only [number, Bool.toNat_false, Bool.toNat_true] <;> omega
    have hmod : (number i k).toNat % 2 = k.toNat := by
      cases k <;> simp only [number, Bool.toNat_false, Bool.toNat_true] <;> omega
    rw [if_neg (by have := number_nonneg i k; omega), hdiv, hmod, hp]
    cases k <;> rfl

/-! ## Observations of one pair -/

section

variable {h : List Report} {i : Nat} {e : Report}

/-- A report that says nothing of pair `i`. -/
def Report.Silent (e : Report) (i : Nat) : Prop :=
  ∀ k, e.writes (number i k) = [] ∧ e.reads (number i k) = [] ∧
    e.leaves (number i k) = false ∧ e.joins (number i k) = false

theorem silent_of_error (c : Call) (errno : Errno) : Report.Silent (c, .error errno) i := by
  intro k
  cases c <;> exact ⟨rfl, rfl, rfl, rfl⟩

/-- What is called with a number says nothing of the pairs that the number is not of. -/
theorem silent_elsewhere {j : Nat} (hj : j ≠ i) (k : Bool) (r : Reply) :
    (∀ n, Report.Silent (.read (number i k) n, r) j) ∧
      (∀ record, Report.Silent (.write (number i k) record, r) j) ∧
      Report.Silent (.shutdown (number i k), r) j ∧ Report.Silent (.close (number i k), r) j := by
  have hne (l : Bool) : number i k ≠ number j l := number_ne (Ne.symm hj) k l
  refine ⟨fun n l => ?_, fun record l => ?_, fun l => ?_, fun l => ?_⟩
  all_goals cases r <;> simp [Report.writes, Report.reads, Report.leaves, Report.joins, hne]

theorem written_silent (he : e.Silent i) (k : Bool) :
    written (number i k) (e :: h) = written (number i k) h := by
  rw [written, (he k).1, List.append_nil]

theorem received_silent (he : e.Silent i) (k : Bool) :
    received (number i k) (e :: h) = received (number i k) h := by
  rw [received, (he k).2.1, List.append_nil]

theorem peerGone_cons {k : Bool} (hleaves : e.leaves (number i (!k)) = false)
    (hjoins : e.joins (number i true) = false) : PeerGone (e :: h) i k ↔ PeerGone h i k := by
  simp only [PeerGone, Pending, hleaves, hjoins, Bool.false_eq_true, not_false_eq_true, true_and,
    false_or]

theorem peerGone_leaves {k : Bool} (hleaves : e.leaves (number i (!k)) = true) :
    PeerGone (e :: h) i k :=
  .inl hleaves

theorem not_peerGone_joins {k : Bool} (hleaves : e.leaves (number i (!k)) = false)
    (hjoins : e.joins (number i true) = true) : ¬ PeerGone (e :: h) i k := by
  rintro (hgone | ⟨hnone, -⟩)
  · rw [hleaves] at hgone
    cases hgone
  · exact hnone hjoins

/-- A pair, and what its two ends have received and been told. -/
structure PairOk (h : List Report) (i : Nat) (p : FakeSocketPair) : Prop where
  slot : ∀ k, p.fd k = -1 ∨ p.fd k = number i k
  alone : p.listening = true → p.fd true = -1
  inOrder : ∀ k, received (number i k) h <+: written (number i (!k)) h
  unread : ∀ k, p.fd k ≠ -1 → received (number i k) h ++ p.buffer k = written (number i (!k)) h
  readable : ∀ k, p.fd k ≠ -1 → (p.readable k = true ↔ p.buffer k ≠ [] ∨ PeerGone h i k)
  gone : ∀ k, p.fd k ≠ -1 → p.readable k = true →
    (PeerGone h i k ↔ p.fd (!k) = -1 ∨ p.shutdown (!k) = true)
  /-- Never connected: what the first end has written waits for the second. -/
  fresh : p.fd false ≠ -1 → p.fd true = -1 → p.readable false = false →
    p.shutdown false = false ∧ (p.readable true = true ↔ p.buffer true ≠ []) ∧
      received (number i true) h ++ p.buffer true = written (number i false) h

variable {p : FakeSocketPair} {k : Bool}

theorem PairOk.silent (hok : PairOk h i p) (he : e.Silent i) : PairOk (e :: h) i p := by
  have hgone : ∀ k, PeerGone (e :: h) i k ↔ PeerGone h i k := fun k =>
    peerGone_cons (he (!k)).2.2.1 (he true).2.2.2
  constructor
  · exact hok.slot
  · exact hok.alone
  · intro k
    rw [received_silent he, written_silent he]
    exact hok.inOrder k
  · intro k hk
    rw [received_silent he, written_silent he]
    exact hok.unread k hk
  · intro k hk
    rw [hgone]
    exact hok.readable k hk
  · intro k hk hr
    rw [hgone]
    exact hok.gone k hk hr
  · intro hfirst hsecond hr
    rw [received_silent he, written_silent he]
    exact hok.fresh hfirst hsecond hr

theorem pairOk_new (i : Nat) : PairOk [] i (.new i) := by
  constructor
  · rintro (_ | _)
    · exact .inr rfl
    · exact .inl rfl
  · nofun
  · exact fun _ => List.prefix_rfl
  · exact fun _ _ => rfl
  · intro k _
    constructor
    · nofun
    · rintro (hne | hgone)
      · exact absurd rfl hne
      · exact hgone.elim
  · nofun
  · exact fun _ _ _ => ⟨rfl, ⟨nofun, fun hne => absurd rfl hne⟩, rfl⟩

theorem PairOk.listen (hok : PairOk h i p) (hsecond : p.fd true = -1) :
    PairOk h i { p with listening := true, connectingFd := -1 } :=
  ⟨hok.slot, fun _ => hsecond, hok.inOrder, hok.unread, hok.readable, hok.gone, hok.fresh⟩

theorem PairOk.connecting (hok : PairOk h i p) (fd : Int) :
    PairOk h i { p with connectingFd := fd } :=
  ⟨hok.slot, hok.alone, hok.inOrder, hok.unread, hok.readable, hok.gone, hok.fresh⟩

theorem PairOk.not_gone (hok : PairOk h i p) (hk : p.fd k ≠ -1) (hr : p.readable k = false) :
    ¬ PeerGone h i k := by
  intro hgone
  have hreadable := (hok.readable k hk).mpr (.inr hgone)
  rw [hr] at hreadable
  cases hreadable

/-! ## Each operation on its pair -/

section

variable (p : FakeSocketPair) (k : Bool) (r : Record) (rest : List Record)

@[simp] theorem put_buffer_self : (p.put k r).buffer k = p.buffer k :=
  Function.update_of_ne (by simp) _ _

@[simp] theorem put_buffer_not : (p.put k r).buffer (!k) = p.buffer (!k) ++ [r] :=
  Function.update_self _ _ _

@[simp] theorem put_readable_self : (p.put k r).readable k = p.readable k :=
  Function.update_of_ne (by simp) _ _

@[simp] theorem put_readable_not : (p.put k r).readable (!k) = true :=
  Function.update_self _ _ _

@[simp] theorem take_buffer_self : (p.take k rest).buffer k = rest :=
  Function.update_self _ _ _

@[simp] theorem take_buffer_not : (p.take k rest).buffer (!k) = p.buffer (!k) :=
  Function.update_of_ne (by simp) _ _

theorem take_readable_self :
    (p.take k rest).readable k =
      if p.fd (!k) = -1 ∨ p.shutdown (!k) then true
      else if rest = [] then false
      else p.readable k :=
  Function.update_self _ _ _

@[simp] theorem take_readable_not : (p.take k rest).readable (!k) = p.readable (!k) :=
  Function.update_of_ne (by simp) _ _

@[simp] theorem shut_fd : (p.shut k).fd = p.fd := rfl

@[simp] theorem shut_buffer : (p.shut k).buffer = p.buffer := rfl

@[simp] theorem shut_shutdown_self : (p.shut k).shutdown k = true :=
  Function.update_self _ _ _

@[simp] theorem shut_shutdown_not : (p.shut k).shutdown (!k) = p.shutdown (!k) :=
  Function.update_of_ne (by simp) _ _

@[simp] theorem shut_readable_self : (p.shut k).readable k = p.readable k :=
  Function.update_of_ne (by simp) _ _

@[simp] theorem shut_readable_not : (p.shut k).readable (!k) = true :=
  Function.update_self _ _ _

@[simp] theorem drop_fd_self : (p.drop k).fd k = -1 :=
  Function.update_self _ _ _

@[simp] theorem drop_fd_not : (p.drop k).fd (!k) = p.fd (!k) :=
  Function.update_of_ne (by simp) _ _

@[simp] theorem drop_buffer_not : (p.drop k).buffer (!k) = p.buffer (!k) :=
  Function.update_of_ne (by simp) _ _

@[simp] theorem drop_readable_self : (p.drop k).readable k = p.readable k :=
  Function.update_of_ne (by simp) _ _

@[simp] theorem drop_readable_not : (p.drop k).readable (!k) = true :=
  Function.update_self _ _ _

@[simp] theorem join_fd_false : p.join.fd false = p.fd false := rfl

@[simp] theorem join_fd_true : p.join.fd true = p.fd false + 1 := rfl

end

theorem PairOk.put (hok : PairOk h i p) (hk : p.fd k ≠ -1) (hshut : p.shutdown k = false)
    (r : Record) (n : Nat) :
    PairOk ((.write (number i k) r, .wrote n) :: h) i (p.put k r) := by
  have hreceived : ∀ l, received (number i l) ((.write (number i k) r, .wrote n) :: h) =
      received (number i l) h := fun l => List.append_nil _
  have hself : written (number i k) ((.write (number i k) r, .wrote n) :: h) =
      written (number i k) h ++ [r] := by
    simp [written, Report.writes]
  have hother : written (number i (!k)) ((.write (number i k) r, .wrote n) :: h) =
      written (number i (!k)) h := by
    simp [written, Report.writes, (number_not_ne i k).symm]
  have hgone : ∀ l, PeerGone ((.write (number i k) r, .wrote n) :: h) i l ↔ PeerGone h i l :=
    fun l => peerGone_cons rfl rfl
  constructor
  · exact hok.slot
  · exact hok.alone
  · intro l
    rw [hreceived]
    rcases Bool.eq_or_eq_not l k with rfl | rfl
    · rw [hother]
      exact hok.inOrder l
    · rw [Bool.not_not, hself]
      have hprefix := hok.inOrder (!k)
      rw [Bool.not_not] at hprefix
      exact hprefix.trans (List.prefix_append _ _)
  · intro l hl
    rw [hreceived]
    rcases Bool.eq_or_eq_not l k with rfl | rfl
    · rw [hother, put_buffer_self]
      exact hok.unread l hl
    · have hunread := hok.unread (!k) hl
      rw [Bool.not_not] at hunread ⊢
      rw [hself, put_buffer_not, ← List.append_assoc, hunread]
  · intro l hl
    rw [hgone]
    rcases Bool.eq_or_eq_not l k with rfl | rfl
    · rw [put_readable_self, put_buffer_self]
      exact hok.readable l hl
    · rw [put_readable_not, put_buffer_not]
      exact ⟨fun _ => .inl (by simp), fun _ => rfl⟩
  · intro l hl hr
    rw [hgone]
    rcases Bool.eq_or_eq_not l k with rfl | rfl
    · rw [put_readable_self] at hr
      exact hok.gone l hl hr
    · cases hbefore : p.readable (!k) with
      | true => exact hok.gone (!k) hl hbefore
      | false =>
          rw [Bool.not_not]
          constructor
          · exact fun hpeer => absurd hpeer (hok.not_gone hl hbefore)
          · rintro (hclosed | hshut')
            · exact absurd hclosed hk
            · exact absurd (hshut.symm.trans hshut') (by simp)
  · intro hfirst hsecond hr
    have hk0 : k = false := by
      cases k with
      | false => rfl
      | true => exact absurd hsecond hk
    subst hk0
    obtain ⟨hshut0, -, hunread⟩ := hok.fresh hfirst hsecond hr
    refine ⟨hshut0, ⟨fun _ => by simp [FakeSocketPair.put], fun _ => rfl⟩, ?_⟩
    rw [hreceived, hself, ← hunread, List.append_assoc]
    rfl

/-- A read that returns `rs`: a record, or none where the buffer is empty. -/
theorem PairOk.take (hok : PairOk h i p) (hk : p.fd k ≠ -1) (hr : p.readable k = true)
    {rs rest : List Record} (hbuffer : p.buffer k = rs ++ rest)
    (hwrites : ∀ l, e.writes (number i l) = []) (hself : e.reads (number i k) = rs)
    (hother : e.reads (number i (!k)) = []) (hleaves : ∀ l, e.leaves (number i l) = false)
    (hjoins : e.joins (number i true) = false) : PairOk (e :: h) i (p.take k rest) := by
  have hwritten : ∀ l, written (number i l) (e :: h) = written (number i l) h := by
    intro l
    rw [written, hwrites, List.append_nil]
  have hgone : ∀ l, PeerGone (e :: h) i l ↔ PeerGone h i l := fun l =>
    peerGone_cons (hleaves _) hjoins
  have hunread : received (number i k) (e :: h) ++ rest = written (number i (!k)) h := by
    rw [received, hself, List.append_assoc, ← hbuffer]
    exact hok.unread k hk
  have hreceived : received (number i (!k)) (e :: h) = received (number i (!k)) h := by
    rw [received, hother, List.append_nil]
  constructor
  · exact hok.slot
  · exact hok.alone
  · intro l
    rw [hwritten]
    rcases Bool.eq_or_eq_not l k with rfl | rfl
    · exact ⟨rest, hunread⟩
    · rw [hreceived]
      exact hok.inOrder (!k)
  · intro l hl
    rw [hwritten]
    rcases Bool.eq_or_eq_not l k with rfl | rfl
    · rw [take_buffer_self]
      exact hunread
    · rw [hreceived, take_buffer_not]
      exact hok.unread (!k) hl
  · intro l hl
    rw [hgone]
    rcases Bool.eq_or_eq_not l k with rfl | rfl
    · rw [take_buffer_self, take_readable_self]
      have hpeer := hok.gone l hk hr
      split_ifs with hgone' hempty
      · exact ⟨fun _ => .inr (hpeer.mpr hgone'), fun _ => rfl⟩
      · have hnot : ¬ PeerGone h i l := fun hg => hgone' (hpeer.mp hg)
        simp [hempty, hnot]
      · exact ⟨fun _ => .inl hempty, fun _ => hr⟩
    · rw [take_buffer_not, take_readable_not]
      exact hok.readable (!k) hl
  · intro l hl hr'
    rw [hgone]
    rcases Bool.eq_or_eq_not l k with rfl | rfl
    · exact hok.gone l hk hr
    · rw [take_readable_not] at hr'
      exact hok.gone (!k) hl hr'
  · intro hfirst hsecond hr'
    -- An end whose other end is closed stays readable.
    exfalso
    have hk0 : k = false := by
      cases k with
      | false => rfl
      | true => exact absurd hsecond hk
    subst hk0
    rw [take_readable_self, if_pos (.inl hsecond)] at hr'
    cases hr'

/-- A shutdown or a close of `k`, as its own end and the other see it. -/
theorem peerGone_leaving {c : Call} (hleaves : Report.leaves (number i k) (c, .ok) = true)
    (hother : Report.leaves (number i (!k)) (c, .ok) = false)
    (hjoins : Report.joins (number i true) (c, .ok) = false) (l : Bool) :
    PeerGone ((c, .ok) :: h) i l ↔ l = !k ∨ PeerGone h i l := by
  rcases Bool.eq_or_eq_not l k with rfl | rfl
  · rw [peerGone_cons hother hjoins]
    simp
  · simp only [true_or, iff_true]
    apply peerGone_leaves
    rwa [Bool.not_not]

theorem PairOk.shut (hok : PairOk h i p) (hk : p.fd k ≠ -1) (hn : p.fd (!k) ≠ -1) :
    PairOk ((.shutdown (number i k), .ok) :: h) i (p.shut k) := by
  have hwritten : ∀ n, written n ((.shutdown (number i k), .ok) :: h) = written n h :=
    fun n => List.append_nil _
  have hreceived : ∀ n, received n ((.shutdown (number i k), .ok) :: h) = received n h :=
    fun n => List.append_nil _
  have hgone := @peerGone_leaving h i k (.shutdown (number i k)) (by simp [Report.leaves])
    (by simp [Report.leaves, (number_not_ne i k).symm]) rfl
  constructor
  · exact hok.slot
  · exact hok.alone
  · intro l
    rw [hwritten, hreceived]
    exact hok.inOrder l
  · intro l hl
    rw [hwritten, hreceived]
    exact hok.unread l hl
  · intro l hl
    rw [hgone]
    rcases Bool.eq_or_eq_not l k with rfl | rfl
    · rw [shut_readable_self]
      simpa using hok.readable l hl
    · simp
  · intro l hl hr
    rw [hgone]
    rcases Bool.eq_or_eq_not l k with rfl | rfl
    · rw [shut_readable_self] at hr
      rw [shut_shutdown_not]
      simpa using hok.gone l hl hr
    · simp
  · intro hfirst hsecond
    cases k with
    | false => exact absurd hsecond hn
    | true => exact absurd hsecond hk

theorem PairOk.drop (hok : PairOk h i p) (hk : p.fd k ≠ -1) :
    PairOk ((.close (number i k), .ok) :: h) i (p.drop k) := by
  have hwritten : ∀ n, written n ((.close (number i k), .ok) :: h) = written n h :=
    fun n => List.append_nil _
  have hreceived : ∀ n, received n ((.close (number i k), .ok) :: h) = received n h :=
    fun n => List.append_nil _
  have hgone := @peerGone_leaving h i k (.close (number i k)) (by simp [Report.leaves])
    (by simp [Report.leaves, (number_not_ne i k).symm]) rfl
  have hopen : ∀ l, (p.drop k).fd l ≠ -1 → l = !k := by
    intro l hl
    rcases Bool.eq_or_eq_not l k with rfl | rfl
    · exact absurd (drop_fd_self p l) hl
    · rfl
  constructor
  · intro l
    rcases Bool.eq_or_eq_not l k with rfl | rfl
    · exact .inl (drop_fd_self p l)
    · rw [drop_fd_not]
      exact hok.slot (!k)
  · intro hlistening
    have hsecond := hok.alone hlistening
    cases k with
    | false => exact hsecond
    | true => exact absurd hsecond hk
  · intro l
    rw [hwritten, hreceived]
    exact hok.inOrder l
  · intro l hl
    cases hopen l hl
    rw [hwritten, hreceived, drop_buffer_not]
    rw [drop_fd_not] at hl
    exact hok.unread (!k) hl
  · intro l hl
    cases hopen l hl
    rw [hgone, drop_readable_not]
    simp
  · intro l hl _
    cases hopen l hl
    rw [hgone, Bool.not_not, drop_fd_self]
    simp
  · intro hfirst _ hr
    -- The second end was dropped, and the first is readable since.
    exfalso
    have hk1 : k = true := by
      have hnot := hopen false hfirst
      cases k with
      | false => cases hnot
      | true => rfl
    subst hk1
    have hreadable : (p.drop true).readable false = true := drop_readable_not p true
    rw [hr] at hreadable
    cases hreadable

theorem fresh_iff :
    p.fresh = true ↔
      p.fd false ≠ -1 ∧ p.fd true = -1 ∧ p.listening = false ∧ p.readable false = false := by
  simp [FakeSocketPair.fresh, and_assoc]

/-- The second end of a fresh pair is opened. -/
theorem PairOk.join (hok : PairOk h i p) (hfresh : p.fresh = true)
    (hwrites : ∀ l, e.writes (number i l) = []) (hreads : ∀ l, e.reads (number i l) = [])
    (hleaves : ∀ l, e.leaves (number i l) = false) (hjoins : e.joins (number i true) = true) :
    PairOk (e :: h) i p.join := by
  obtain ⟨hfirst, hsecond, hlistening, hr⟩ := fresh_iff.mp hfresh
  obtain ⟨hshut, hreadable, hunread⟩ := hok.fresh hfirst hsecond hr
  have hwritten : ∀ l, written (number i l) (e :: h) = written (number i l) h := by
    intro l
    rw [written, hwrites, List.append_nil]
  have hreceived : ∀ l, received (number i l) (e :: h) = received (number i l) h := by
    intro l
    rw [received, hreads, List.append_nil]
  have hgone : ∀ l, ¬ PeerGone (e :: h) i l := fun l => not_peerGone_joins (hleaves _) hjoins
  have hnumber : p.fd false = number i false := (hok.slot false).resolve_left hfirst
  constructor
  · rintro (_ | _)
    · exact .inr hnumber
    · rw [join_fd_true, hnumber, number_true]
      exact .inr rfl
  · intro hlistening'
    have hboth : false = true := hlistening.symm.trans hlistening'
    cases hboth
  · intro l
    rw [hwritten, hreceived]
    exact hok.inOrder l
  · intro l _
    rw [hwritten, hreceived]
    cases l with
    | false => exact hok.unread false hfirst
    | true => exact hunread
  · intro l _
    cases l with
    | false =>
        have hempty : p.buffer false = [] := by
          by_contra hne
          exact absurd (hr.symm.trans ((hok.readable false hfirst).mpr (.inl hne))) (by simp)
        exact ⟨fun h => absurd (hr.symm.trans h) (by simp),
          fun h => h.elim (fun hne => absurd hempty hne) fun hg => absurd hg (hgone false)⟩
    | true => exact hreadable.trans ⟨.inl, fun h => h.resolve_right (hgone true)⟩
  · intro l _ hr'
    cases l with
    | false => exact absurd (hr.symm.trans hr') (by simp)
    | true =>
        refine ⟨fun h => absurd h (hgone true), ?_⟩
        rintro (hclosed | hshut')
        · exact absurd hclosed hfirst
        · exact absurd (hshut.symm.trans hshut') (by simp)
  · intro _ hclosed
    rw [join_fd_true, hnumber] at hclosed
    have hnonneg := number_nonneg i false
    omega

end

end CoolOnline.FakeSocket
