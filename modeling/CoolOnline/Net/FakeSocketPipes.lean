import CoolOnline.Net.FakeSocketPair

/-! # Fake sockets as record pipes

What an end of a pair reads is what the other end has written, where no socket is connected, closed
or made a listener while another call is still about to connect it.
-/

namespace CoolOnline.FakeSocket

/-- No assertion has failed; each open end has received what the other end has written, less what is
still buffered, and is readable if something is buffered or nothing more will come. -/
structure RecordPipes (s : Machine) : Prop where
  running : s.aborted = false
  inOrder : ∀ i k, received (number i k) s.history <+: written (number i (!k)) s.history
  unread : ∀ i k pair, s.fds[i]? = some pair → pair.fd k ≠ -1 →
    received (number i k) s.history ++ pair.buffer k = written (number i (!k)) s.history
  readable : ∀ i k pair, s.fds[i]? = some pair → pair.fd k ≠ -1 →
    (pair.readable k = true ↔ pair.buffer k ≠ [] ∨ PeerGone s.history i k)

namespace Machine

variable (s : Machine)

/-- A listener has been told of `fd`, or `Pipe2` has allocated it and is not finished. -/
def promised (fd : Int) : Bool :=
  0 ≤ fd && s.fds.any (·.connectingFd = fd) ||
    s.threads.any fun
      | .pipe2 i => number i false = fd
      | _ => false

/-- `fd` has been accepted, and `Connect` has not returned. -/
def returning (fd : Int) : Bool :=
  (s.threads.any fun
      | .connect fd₁ _ => fd₁ = fd
      | _ => false) &&
    (lookup s.fds fd).any fun (_, _, pair) => pair.fd true ≠ -1

/-- A socket is given to a listener only when it is fresh and not given to another, and while a call
is about to connect it no other call makes it a listener or closes it. -/
def inTurn : Action → Bool
  | .call (.listen fd) => !s.promised fd
  | .call (.connect fd₁ fd₂) =>
      match lookup s.fds fd₁, lookup s.fds fd₂ with
      | some (i₁, false, pair₁), some (i₂, false, pair₂) =>
          i₁ = i₂ || !pair₂.listening || pair₂.connectingFd ≠ -1 ||
            pair₁.fresh && !s.promised fd₁
      | _, _ => true
  | .call (.close fd) => !s.promised fd && !s.returning fd
  | _ => true

end Machine

/-! ## The pairs of a table -/

/-- A pair that is not allocated yet counts as new. -/
def pairAt (fds : List FakeSocketPair) (i : Nat) : FakeSocketPair := fds[i]?.getD (.new i)

section

variable {fds : List FakeSocketPair} {threads : List Thread} {i j : Nat} {p p' : FakeSocketPair}

theorem pairAt_of_getElem? (hp : fds[i]? = some p) : pairAt fds i = p := by
  rw [pairAt, hp]
  rfl

theorem pairAt_set_self (hp : fds[i]? = some p) : pairAt (fds.set i p') i = p' := by
  have hi : i < fds.length := (List.getElem?_eq_some_iff.mp hp).1
  rw [pairAt, List.getElem?_set_self hi]
  rfl

theorem pairAt_set_ne (hne : i ≠ j) : pairAt (fds.set i p') j = pairAt fds j := by
  rw [pairAt, List.getElem?_set_ne hne, pairAt]

theorem pairAt_new : pairAt (fds ++ [.new fds.length]) i = pairAt fds i := by
  rcases Nat.lt_trichotomy i fds.length with hlt | rfl | hgt
  · rw [pairAt, List.getElem?_append_left hlt, pairAt]
  · rw [pairAt, List.getElem?_concat_length, pairAt, List.getElem?_eq_none (Nat.le_refl _)]
    rfl
  · rw [pairAt, pairAt, List.getElem?_eq_none, List.getElem?_eq_none (Nat.le_of_lt hgt)]
    rw [List.length_append]
    exact hgt

/-- Where a socket is promised to be connected: by a listener that has been told of it, or by the
`Pipe2` that has allocated it. -/
def Promises (fds : List FakeSocketPair) (threads : List Thread) : Option Nat → Nat → Prop
  | some i, j => (pairAt fds i).connectingFd = number j false
  | none, j => .pipe2 j ∈ threads

/-- What is promised is fresh and promised once, and what has been accepted is open until `Connect`
returns. -/
structure Orderly (fds : List FakeSocketPair) (threads : List Thread) : Prop where
  evens : ∀ i, (pairAt fds i).connectingFd = -1 ∨
    ∃ j, (pairAt fds i).connectingFd = number j false
  promised : ∀ o j, Promises fds threads o j → j < fds.length ∧ (pairAt fds j).fresh = true
  once : ∀ o o' j, Promises fds threads o j → Promises fds threads o' j → o = o'
  pipes : ∀ j, threads.count (.pipe2 j) ≤ 1
  firsts : ∀ fd₁ fd₂, .connect fd₁ fd₂ ∈ threads → ∃ j, fd₁ = number j false
  returning : ∀ j fd, .connect (number j false) fd ∈ threads →
    (pairAt fds j).fd true ≠ -1 → (pairAt fds j).fd false ≠ -1

theorem fresh_new (i : Nat) : (FakeSocketPair.new i).fresh = true :=
  fresh_iff.mpr ⟨number_ne_closed i false, rfl, rfl, rfl⟩

theorem lt_length_of_connecting (h : (pairAt fds i).connectingFd = number j false) :
    ∃ p, fds[i]? = some p ∧ p.connectingFd = number j false := by
  cases hp : fds[i]? with
  | none =>
      rw [pairAt, hp] at h
      exact absurd h.symm (number_ne_closed j false)
  | some p =>
      rw [pairAt_of_getElem? hp] at h
      exact ⟨p, rfl, h⟩

theorem Orderly.set (ho : Orderly fds threads) (hp : fds[i]? = some p)
    (hc : p'.connectingFd = p.connectingFd ∨ p'.connectingFd = -1)
    (hfresh : ∀ o, Promises fds threads o i → p'.fresh = true)
    (hreturn : ∀ fd, .connect (number i false) fd ∈ threads →
      p'.fd true ≠ -1 → p'.fd false ≠ -1) :
    Orderly (fds.set i p') threads := by
  have hpair := pairAt_of_getElem? hp
  have hold : ∀ o j, Promises (fds.set i p') threads o j → Promises fds threads o j := by
    intro o j h
    cases o with
    | none => exact h
    | some l =>
        change (pairAt (fds.set i p') l).connectingFd = number j false at h
        by_cases hl : i = l
        · subst hl
          rw [pairAt_set_self hp] at h
          change (pairAt fds i).connectingFd = number j false
          rw [hpair]
          rcases hc with hc | hc
          · exact hc.symm.trans h
          · exact absurd (h.symm.trans hc) (number_ne_closed j false)
        · rwa [pairAt_set_ne hl] at h
  constructor
  · intro l
    by_cases hl : i = l
    · subst hl
      rw [pairAt_set_self hp]
      rcases hc with hc | hc
      · rw [hc, ← hpair]
        exact ho.evens i
      · exact .inl hc
    · rw [pairAt_set_ne hl]
      exact ho.evens l
  · intro o j h
    obtain ⟨hlt, hj⟩ := ho.promised o j (hold o j h)
    refine ⟨by rwa [List.length_set], ?_⟩
    by_cases hl : i = j
    · subst hl
      rw [pairAt_set_self hp]
      exact hfresh o (hold o i h)
    · rwa [pairAt_set_ne hl]
  · exact fun o o' j h h' => ho.once o o' j (hold o j h) (hold o' j h')
  · exact ho.pipes
  · exact ho.firsts
  · intro j fd hmem
    by_cases hl : i = j
    · subst hl
      rw [pairAt_set_self hp]
      exact hreturn fd hmem
    · rw [pairAt_set_ne hl]
      exact ho.returning j fd hmem

/-- A change that keeps a fresh pair fresh, and its first end. -/
theorem Orderly.set_of_fresh (ho : Orderly fds threads) (hp : fds[i]? = some p)
    (hc : p'.connectingFd = p.connectingFd) (hfd : p'.fd = p.fd)
    (hfresh : p.fresh = true → p'.fresh = true) : Orderly (fds.set i p') threads := by
  have hpair := pairAt_of_getElem? hp
  apply ho.set hp (.inl hc)
  · intro o h
    apply hfresh
    rw [← hpair]
    exact (ho.promised o i h).2
  · intro fd hmem
    rw [hfd, ← hpair]
    exact ho.returning i fd hmem

/-- Threads that promise and connect no more than those before. -/
theorem Orderly.of_threads {threads' : List Thread} (ho : Orderly fds threads)
    (hpipes : ∀ j, threads'.count (.pipe2 j) ≤ threads.count (.pipe2 j))
    (hconnects : ∀ fd₁ fd₂, .connect fd₁ fd₂ ∈ threads' → .connect fd₁ fd₂ ∈ threads) :
    Orderly fds threads' := by
  have hold : ∀ o j, Promises fds threads' o j → Promises fds threads o j := by
    intro o j h
    cases o with
    | none => exact List.count_pos_iff.mp (Nat.lt_of_lt_of_le (List.count_pos_iff.mpr h) (hpipes j))
    | some l => exact h
  constructor
  · exact ho.evens
  · exact fun o j h => ho.promised o j (hold o j h)
  · exact fun o o' j h h' => ho.once o o' j (hold o j h) (hold o' j h')
  · exact fun j => Nat.le_trans (hpipes j) (ho.pipes j)
  · exact fun fd₁ fd₂ hmem => ho.firsts fd₁ fd₂ (hconnects fd₁ fd₂ hmem)
  · exact fun j fd hmem => ho.returning j fd (hconnects _ fd hmem)

theorem Orderly.erase (ho : Orderly fds threads) (t : Thread) : Orderly fds (threads.erase t) :=
  ho.of_threads (fun _ => List.erase_sublist.count_le _) fun _ _ => List.mem_of_mem_erase

/-- What `Pipe2` has allocated is promised by nobody once it is finished. -/
theorem Orderly.not_promised_of_pipe2 (ho : Orderly fds threads) (hmem : .pipe2 i ∈ threads)
    (o : Option Nat) : ¬ Promises fds (threads.erase (.pipe2 i)) o i := by
  intro h
  cases o with
  | none =>
      have hcount : 0 < (threads.erase (.pipe2 i)).count (.pipe2 i) := List.count_pos_iff.mpr h
      have hone := ho.pipes i
      rw [List.count_erase_self] at hcount
      omega
  | some l =>
      have hsame : some l = none := ho.once (some l) none i h hmem
      cases hsame

theorem Orderly.append (ho : Orderly fds threads) :
    Orderly (fds ++ [.new fds.length]) threads := by
  have hold : ∀ o j, Promises (fds ++ [.new fds.length]) threads o j → Promises fds threads o j := by
    intro o j h
    cases o with
    | none => exact h
    | some l => rwa [Promises, pairAt_new] at h
  constructor
  · intro l
    rw [pairAt_new]
    exact ho.evens l
  · intro o j h
    obtain ⟨hlt, hj⟩ := ho.promised o j (hold o j h)
    rw [pairAt_new, List.length_append]
    exact ⟨Nat.lt_add_right _ hlt, hj⟩
  · exact fun o o' j h h' => ho.once o o' j (hold o j h) (hold o' j h')
  · exact ho.pipes
  · exact ho.firsts
  · intro j fd hmem
    rw [pairAt_new]
    exact ho.returning j fd hmem

theorem Orderly.accept4 (ho : Orderly fds threads) (fd : Int) :
    Orderly fds (.accept4 fd :: threads) := by
  apply ho.of_threads
  · intro j
    rw [List.count_cons_of_ne (show Thread.accept4 fd ≠ .pipe2 j by nofun)]
  · exact fun fd₁ fd₂ hmem => (List.mem_cons.mp hmem).resolve_left nofun

theorem Orderly.pipe2 (ho : Orderly fds threads) :
    Orderly (fds ++ [.new fds.length]) (.pipe2 fds.length :: threads) := by
  have hnone : ∀ o, ¬ Promises fds threads o fds.length := fun o h =>
    Nat.lt_irrefl _ (ho.promised o _ h).1
  have hold : ∀ o j, Promises (fds ++ [.new fds.length]) (.pipe2 fds.length :: threads) o j →
      o = none ∧ j = fds.length ∨ Promises fds threads o j := by
    intro o j h
    cases o with
    | none =>
        rcases List.mem_cons.mp h with heq | hmem
        · cases heq
          exact .inl ⟨rfl, rfl⟩
        · exact .inr hmem
    | some l =>
        rw [Promises, pairAt_new] at h
        exact .inr h
  constructor
  · exact ho.append.evens
  · intro o j h
    rw [pairAt_new, List.length_append]
    rcases hold o j h with ⟨-, rfl⟩ | h
    · rw [pairAt, List.getElem?_eq_none (Nat.le_refl _)]
      exact ⟨Nat.lt_succ_self _, fresh_new _⟩
    · exact ⟨Nat.lt_add_right _ (ho.promised o j h).1, (ho.promised o j h).2⟩
  · intro o o' j h h'
    rcases hold o j h with ⟨rfl, hj⟩ | h <;> rcases hold o' j h' with ⟨rfl, hj'⟩ | h'
    · rfl
    · exact absurd (hj ▸ h') (hnone o')
    · exact absurd (hj' ▸ h) (hnone o)
    · exact ho.once o o' j h h'
  · intro j
    by_cases hj : j = fds.length
    · subst hj
      have hzero : threads.count (.pipe2 fds.length) = 0 :=
        List.count_eq_zero.mpr fun hmem => hnone none hmem
      rw [List.count_cons_self, hzero]
    · rw [List.count_cons_of_ne (by simpa using Ne.symm hj)]
      exact ho.pipes j
  · exact fun fd₁ fd₂ hmem => ho.firsts fd₁ fd₂ ((List.mem_cons.mp hmem).resolve_left nofun)
  · intro j fd hmem
    exact ho.append.returning j fd ((List.mem_cons.mp hmem).resolve_left nofun)

/-- `Connect` gives a fresh socket that nobody has promised to a listener. -/
theorem Orderly.connect (ho : Orderly fds threads) (hp : fds[i]? = some p) (hlt : j < fds.length)
    (hfresh : (pairAt fds j).fresh = true) (hnone : ∀ o, ¬ Promises fds threads o j) (fd : Int) :
    Orderly (fds.set i { p with connectingFd := number j false })
      (.connect (number j false) fd :: threads) := by
  have hpair := pairAt_of_getElem? hp
  have hsame : ∀ l, (pairAt (fds.set i { p with connectingFd := number j false }) l).fd =
        (pairAt fds l).fd ∧
      (pairAt (fds.set i { p with connectingFd := number j false }) l).fresh =
        (pairAt fds l).fresh := by
    intro l
    by_cases hl : i = l
    · subst hl
      rw [pairAt_set_self hp, hpair]
      exact ⟨rfl, rfl⟩
    · rw [pairAt_set_ne hl]
      exact ⟨rfl, rfl⟩
  have hold : ∀ o l, Promises (fds.set i { p with connectingFd := number j false })
      (.connect (number j false) fd :: threads) o l →
        o = some i ∧ l = j ∨ Promises fds threads o l := by
    intro o l h
    cases o with
    | none => exact .inr ((List.mem_cons.mp h).resolve_left nofun)
    | some m =>
        change (pairAt (fds.set i _) m).connectingFd = number l false at h
        by_cases hm : i = m
        · subst hm
          rw [pairAt_set_self hp] at h
          exact .inl ⟨rfl, (number_inj h).1.symm⟩
        · rw [pairAt_set_ne hm] at h
          exact .inr h
  constructor
  · intro l
    by_cases hl : i = l
    · subst hl
      rw [pairAt_set_self hp]
      exact .inr ⟨j, rfl⟩
    · rw [pairAt_set_ne hl]
      exact ho.evens l
  · intro o l h
    rw [List.length_set, (hsame l).2]
    rcases hold o l h with ⟨-, rfl⟩ | h
    · exact ⟨hlt, hfresh⟩
    · exact ho.promised o l h
  · intro o o' l h h'
    rcases hold o l h with ⟨rfl, hl⟩ | h <;> rcases hold o' l h' with ⟨rfl, hl'⟩ | h'
    · rfl
    · exact absurd (hl ▸ h') (hnone o')
    · exact absurd (hl' ▸ h) (hnone o)
    · exact ho.once o o' l h h'
  · intro l
    rw [List.count_cons_of_ne (show Thread.connect (number j false) fd ≠ .pipe2 l by nofun)]
    exact ho.pipes l
  · intro fd₁ fd₂ hmem
    rcases List.mem_cons.mp hmem with heq | hmem
    · exact ⟨j, (Thread.connect.inj heq).1⟩
    · exact ho.firsts fd₁ fd₂ hmem
  · intro l fd' hmem
    rw [(hsame l).1]
    rcases List.mem_cons.mp hmem with heq | hmem
    · cases (number_inj (Thread.connect.inj heq).1).1
      exact fun _ => (fresh_iff.mp hfresh).1
    · exact ho.returning l fd' hmem

end

/-! ## A step -/

structure Sound (s : Machine) : Prop where
  running : s.aborted = false
  pairs : ∀ i, PairOk s.history i (pairAt s.fds i)
  orderly : Orderly s.fds s.threads

section

variable {s s' : Machine} {i j : Nat} {k : Bool} {p p' : FakeSocketPair} {c : Call} {o : Outcome}
  {h : List Report} {e : Report} {fds : List FakeSocketPair}

theorem dumpStateOk_of_pairs (hok : ∀ i, PairOk h i (pairAt fds i)) : dumpStateOk fds = true := by
  rw [dumpStateOk, List.all_eq_true]
  rintro ⟨p, i⟩ hmem
  have hp := pairAt_of_getElem? (List.mk_mem_zipIdx_iff_getElem?.mp hmem)
  have hpair := hok i
  rw [hp] at hpair
  have hlistening : p.fd true = -1 ∨ p.listening = false := by
    cases hl : p.listening with
    | true => exact .inl (hpair.alone hl)
    | false => exact .inr rfl
  have hfirst := hpair.slot false
  have hsecond := hpair.slot true
  simp only [decide_eq_true_eq, Bool.not_eq_eq_eq_not, Bool.not_true]
  tauto

theorem pairs_set (hok : ∀ i, PairOk h i (pairAt fds i)) (hp : fds[i]? = some p)
    (hi : PairOk (e :: h) i p') (hsilent : ∀ j, j ≠ i → e.Silent j) (j : Nat) :
    PairOk (e :: h) j (pairAt (fds.set i p') j) := by
  by_cases hj : i = j
  · subst hj
    rwa [pairAt_set_self hp]
  · rw [pairAt_set_ne hj]
    exact (hok j).silent (hsilent j (Ne.symm hj))

/-- A call returns that has changed nothing. -/
theorem Sound.returns (hs : Sound s) {r : Reply} (hsilent : ∀ i, Report.Silent (c, r) i) :
    Sound (s.after c (.returns s.fds r)) :=
  ⟨hs.running, fun i => (hs.pairs i).silent (hsilent i), hs.orderly⟩

theorem Sound.error (hs : Sound s) (errno : Errno) :
    Sound (s.after c (.returns s.fds (.error errno))) :=
  hs.returns fun _ => silent_of_error c errno

/-- A call returns that has changed the pair it is about. -/
theorem Sound.update (hs : Sound s) {r : Reply} (hp : s.fds[i]? = some p)
    (hok : PairOk ((c, r) :: s.history) i p') (hsilent : ∀ j, j ≠ i → Report.Silent (c, r) j)
    (horderly : Orderly (s.fds.set i p') s.threads) :
    Sound (s.after c (.returns (s.fds.set i p') r)) :=
  ⟨hs.running, pairs_set hs.pairs hp hok hsilent, horderly⟩

theorem Sound.pairOk (hs : Sound s) (hp : s.fds[i]? = some p) : PairOk s.history i p := by
  rw [← pairAt_of_getElem? hp]
  exact hs.pairs i

theorem not_promises (hnone : s.promised (number j false) = false) (o : Option Nat) :
    ¬ Promises s.fds s.threads o j := by
  intro h
  rw [Machine.promised, Bool.or_eq_false_iff] at hnone
  cases o with
  | none =>
      have hany := List.any_eq_false.mp hnone.2 (.pipe2 j) h
      simp at hany
  | some l =>
      obtain ⟨p, hp, hc⟩ := lt_length_of_connecting h
      have hany : s.fds.any (·.connectingFd = number j false) = true :=
        List.any_eq_true.mpr ⟨p, List.mem_of_getElem? hp, by simp [hc]⟩
      simp [hany] at hnone

theorem Sound.listen (hs : Sound s) {fd : Int} (hturn : s.promised fd = false) :
    Sound (s.after (.listen fd) (fakeSocketListen s.fds fd)) := by
  rw [fakeSocketListen]
  split
  · exact hs.error _
  · rename_i i k p hlookup
    obtain ⟨rfl, hp⟩ := lookup_eq_some.mp hlookup
    split_ifs with hclosed hconn hlistening
    · exact hs.error _
    · exact hs.error _
    · exact hs.error _
    · simp only [Bool.or_eq_true, decide_eq_true_eq, not_or, Bool.not_eq_true, not_not] at hconn
      obtain ⟨rfl, hsecond⟩ := hconn
      apply hs.update hp
      · exact ((hs.pairOk hp).listen hsecond).silent fun k => ⟨rfl, rfl, rfl, rfl⟩
      · exact fun j _ k => ⟨rfl, rfl, rfl, rfl⟩
      · apply hs.orderly.set hp (.inr rfl)
        · exact fun o h => absurd h (not_promises hturn o)
        · exact fun _ _ hopen => absurd hsecond hopen

theorem Sound.read (hs : Sound s) (fd : Int) (n : Nat) :
    Sound (s.after (.read fd n) (fakeSocketRead s.fds fd n)) := by
  rw [fakeSocketRead]
  split
  · exact hs.error _
  · rename_i i k p hlookup
    obtain ⟨rfl, hp⟩ := lookup_eq_some.mp hlookup
    split_ifs with hclosed hshut hreadable
    · exact hs.error _
    · exact hs.returns fun _ _ => ⟨rfl, rfl, rfl, rfl⟩
    · exact hs.error _
    · have hr : p.readable k = true := by simpa using hreadable
      -- A fresh pair has nothing to read at its first end, and no second end.
      have horderly : ∀ rest, Orderly (s.fds.set i (p.take k rest)) s.threads := by
        intro rest
        apply hs.orderly.set_of_fresh hp
        · rfl
        · rfl
        · intro hfresh
          obtain ⟨-, hsecond, -, hfirst⟩ := fresh_iff.mp hfresh
          cases k with
          | false => exact absurd (hfirst.symm.trans hr) (by simp)
          | true => exact absurd hsecond hclosed
      split
      · rename_i hbuffer
        apply hs.update hp
        · exact (hs.pairOk hp).take hclosed hr hbuffer (fun _ => rfl) rfl rfl (fun _ => rfl) rfl
        · exact fun _ _ _ => ⟨rfl, rfl, rfl, rfl⟩
        · exact horderly []
      · rename_i r rest hbuffer
        split_ifs
        · exact hs.error _
        · apply hs.update hp
          · apply (hs.pairOk hp).take hclosed hr (show p.buffer k = [r] ++ rest from hbuffer)
            · exact fun _ => rfl
            · simp [Report.reads]
            · simp [Report.reads, (number_not_ne i k).symm]
            · exact fun _ => rfl
            · rfl
          · exact fun j hj => (silent_elsewhere hj k _).1 n
          · exact horderly rest

theorem Sound.write (hs : Sound s) (fd : Int) (r : Record) :
    Sound (s.after (.write fd r) (fakeSocketWrite s.fds fd r)) := by
  rw [fakeSocketWrite]
  split
  · exact hs.error _
  · rename_i i k p hlookup
    obtain ⟨rfl, hp⟩ := lookup_eq_some.mp hlookup
    split_ifs with hclosed hshut
    · exact hs.error _
    · exact hs.error _
    · apply hs.update hp
      · exact (hs.pairOk hp).put hclosed (by simpa using hshut) r _
      · exact fun j hj => (silent_elsewhere hj k _).2.1 r
      · apply hs.orderly.set_of_fresh hp
        · rfl
        · rfl
        · intro hfresh
          obtain ⟨hfirst, hsecond, hlistening, hreadable⟩ := fresh_iff.mp hfresh
          cases k with
          | false => exact fresh_iff.mpr ⟨hfirst, hsecond, hlistening, hreadable⟩
          | true => exact absurd hsecond hclosed

theorem Sound.shutdown (hs : Sound s) (fd : Int) :
    Sound (s.after (.shutdown fd) (fakeSocketShutdown s.fds fd)) := by
  rw [fakeSocketShutdown]
  split
  · exact hs.error _
  · rename_i i k p hlookup
    obtain ⟨rfl, hp⟩ := lookup_eq_some.mp hlookup
    split_ifs with hclosed hpeer
    · exact hs.error _
    · exact hs.error _
    · apply hs.update hp
      · exact (hs.pairOk hp).shut hclosed hpeer
      · exact fun j hj => (silent_elsewhere hj k _).2.2.1
      · apply hs.orderly.set_of_fresh hp
        · rfl
        · rfl
        · intro hfresh
          have hsecond := (fresh_iff.mp hfresh).2.1
          cases k with
          | false => exact absurd hsecond hpeer
          | true => exact absurd hsecond hclosed

theorem Sound.close (hs : Sound s) {fd : Int} (hturn : s.promised fd = false)
    (hreturn : s.returning fd = false) :
    Sound (s.after (.close fd) (fakeSocketClose s.fds fd)) := by
  rw [fakeSocketClose]
  split
  · exact hs.error _
  · rename_i i k p hlookup
    obtain ⟨rfl, hp⟩ := lookup_eq_some.mp hlookup
    have hok := hs.pairOk hp
    split_ifs with hclosed hother
    · exact hs.error _
    · exact absurd ((hok.slot k).resolve_left hclosed) hother
    · have hpairs := pairs_set hs.pairs hp (hok.drop hclosed) fun j hj =>
        (silent_elsewhere hj k _).2.2.2
      simp only [dumpStateOk_of_pairs hpairs, if_true]
      refine ⟨hs.running, hpairs, ?_⟩
      change Orderly (s.fds.set i (p.drop k)) s.threads
      apply hs.orderly.set hp
      · exact .inl rfl
      · intro o ho
        cases k with
        | false => exact absurd ho (not_promises hturn o)
        | true =>
            have hfresh := (hs.orderly.promised o i ho).2
            rw [pairAt_of_getElem? hp] at hfresh
            exact absurd (fresh_iff.mp hfresh).2.1 hclosed
      · intro fd' hmem hopen
        cases k with
        | false =>
            have hany : (s.threads.any fun
                | .connect fd₁ _ => fd₁ = number i false
                | _ => false) = true := List.any_eq_true.mpr ⟨_, hmem, by simp⟩
            rw [Machine.returning, hany, hlookup] at hreturn
            have hsecond : p.fd true = -1 := by simpa using hreturn
            exact absurd hsecond hopen
        | true => exact absurd rfl hopen

theorem Sound.finishConnect (hs : Sound s) {fd₁ fd₂ : Int}
    (hfinish : finishConnect s.fds fd₁ = some o)
    (hreturn : ∀ j, fd₁ = number j false → (pairAt s.fds j).fd true ≠ -1 →
      (pairAt s.fds j).fd false ≠ -1) (heven : ∃ j, fd₁ = number j false) :
    Sound (s.after (.connect fd₁ fd₂) o) := by
  obtain ⟨j, rfl⟩ := heven
  rw [FakeSocket.finishConnect] at hfinish
  split at hfinish
  · cases hfinish
  · rename_i i k p hlookup
    obtain ⟨hnumber, hp⟩ := lookup_eq_some.mp hlookup
    obtain ⟨rfl, rfl⟩ := number_inj hnumber
    have hopen := hreturn j rfl
    rw [pairAt_of_getElem? hp] at hopen
    have hok := hs.pairOk hp
    split_ifs at hfinish with hclosed hbeside
    · cases hfinish
      exact hs.returns fun _ _ => ⟨rfl, rfl, rfl, rfl⟩
    · have hfirst := (hok.slot false).resolve_left (hopen hclosed)
      have hsecond := (hok.slot true).resolve_left hclosed
      rw [hfirst, hsecond, number_true] at hbeside
      exact absurd rfl hbeside

/-- A listener is told of a socket, or of none any more. -/
theorem pairs_connecting (hok : ∀ i, PairOk h i (pairAt fds i)) (hp : fds[i]? = some p) (fd : Int)
    (j : Nat) : PairOk h j (pairAt (fds.set i { p with connectingFd := fd }) j) := by
  by_cases hj : i = j
  · subst hj
    rw [pairAt_set_self hp]
    have hi := hok i
    rw [pairAt_of_getElem? hp] at hi
    exact hi.connecting fd
  · rw [pairAt_set_ne hj]
    exact hok j

/-- The second end of a fresh pair is opened, which nobody promises any more. -/
theorem Sound.join (hs : Sound s) {r : Reply} (hp : s.fds[j]? = some p) (hfresh : p.fresh = true)
    (hnone : ∀ o, ¬ Promises s.fds s.threads o j)
    (hwrites : ∀ n, Report.writes n (c, r) = []) (hreads : ∀ n, Report.reads n (c, r) = [])
    (hleaves : ∀ n, Report.leaves n (c, r) = false)
    (hjoins : ∀ n, Report.joins n (c, r) = true ↔ n = number j true) :
    Sound (s.after c (.returns (s.fds.set j p.join) r)) := by
  apply hs.update hp
  · exact (hs.pairOk hp).join hfresh (fun _ => hwrites _) (fun _ => hreads _) (fun _ => hleaves _)
      ((hjoins _).mpr rfl)
  · intro l hl k
    refine ⟨hwrites _, hreads _, hleaves _, Bool.eq_false_iff.mpr fun hjoin => ?_⟩
    exact number_ne hl k true ((hjoins _).mp hjoin)
  · apply hs.orderly.set hp
    · exact .inl rfl
    · exact fun o ho => absurd ho (hnone o)
    · exact fun _ _ _ => (fresh_iff.mp hfresh).1

theorem first_of_fresh (hok : PairOk h i p) (hfresh : p.fresh = true) :
    p.fd false = number i false :=
  (hok.slot false).resolve_left (fresh_iff.mp hfresh).1

theorem Sound.finishAccept4 (hs : Sound s) {fd : Int} (hfinish : finishAccept4 s.fds fd = some o) :
    Sound (s.after (.accept4 fd) o) := by
  rw [FakeSocket.finishAccept4] at hfinish
  split at hfinish
  · cases hfinish
  rename_i i k p hlookup
  obtain ⟨-, hp⟩ := lookup_eq_some.mp hlookup
  have hpair := pairAt_of_getElem? hp
  split_ifs at hfinish with hnone
  have heven := hs.orderly.evens i
  rw [hpair] at heven
  obtain ⟨j, hj⟩ := heven.resolve_left hnone
  have hpromised : Promises s.fds s.threads (some i) j := by
    change (pairAt s.fds i).connectingFd = number j false
    rw [hpair, hj]
  obtain ⟨hlt, hfresh⟩ := hs.orderly.promised _ j hpromised
  have hp₂ : s.fds[j]? = some (pairAt s.fds j) := by
    rw [pairAt, List.getElem?_eq_getElem hlt]
    rfl
  have hfirst := first_of_fresh (hs.pairs j) hfresh
  rw [hj, lookup_eq_some.mpr ⟨rfl, hp₂⟩] at hfinish
  dsimp only at hfinish
  rw [if_pos ⟨(fresh_iff.mp hfresh).2.1, hfirst⟩] at hfinish
  -- The listener is told of nothing any more, and the socket is promised by nobody.
  let fds₁ := s.fds.set i { p with connectingFd := -1 }
  have hpairs₁ : ∀ l, PairOk s.history l (pairAt fds₁ l) := pairs_connecting hs.pairs hp (-1)
  have horderly₁ : Orderly fds₁ s.threads := by
    apply hs.orderly.set hp
    · exact .inr rfl
    · intro o ho
      have hpfresh := (hs.orderly.promised o i ho).2
      rwa [hpair] at hpfresh
    · intro fd' hmem
      have hreturning := hs.orderly.returning i fd' hmem
      rwa [hpair] at hreturning
  have hnone₁ : ∀ o, ¬ Promises fds₁ s.threads o j := by
    intro o ho
    cases o with
    | none =>
        have hsame := hs.orderly.once none (some i) j ho hpromised
        cases hsame
    | some l =>
        change (pairAt fds₁ l).connectingFd = number j false at ho
        by_cases hl : i = l
        · subst hl
          rw [pairAt_set_self hp] at ho
          exact absurd ho.symm (number_ne_closed j false)
        · rw [pairAt_set_ne hl] at ho
          have hsame := hs.orderly.once (some l) (some i) j ho hpromised
          exact hl (Option.some.inj hsame).symm
  have hsame : (pairAt fds₁ j).fresh = true ∧ fds₁[j]? = some (pairAt fds₁ j) := by
    constructor
    · by_cases hl : i = j
      · subst hl
        rw [pairAt_set_self hp, ← hfresh, hpair]
        rfl
      · rwa [pairAt_set_ne hl]
    · have hlt₁ : j < fds₁.length := by rwa [List.length_set]
      rw [pairAt, List.getElem?_eq_getElem hlt₁]
      rfl
  have hs₁ : Sound { s with fds := fds₁ } := ⟨hs.running, hpairs₁, horderly₁⟩
  have hjoined := hs₁.join (c := .accept4 fd) (r := .fd (number j true)) hsame.2 hsame.1 hnone₁
    (fun _ => rfl) (fun _ => rfl) (fun _ => rfl) (fun n => by simp [Report.joins, eq_comm])
  have hmodify : fds₁.modify j .join = fds₁.set j (pairAt fds₁ j).join := by
    rw [List.modify_eq_set_getElem?, hsame.2]
    rfl
  rw [hfirst, ← number_true] at hfinish
  change (if dumpStateOk (fds₁.modify j .join) = true then
    some (Outcome.returns (fds₁.modify j .join) (.fd (number j true))) else _) = some o at hfinish
  have hdump : dumpStateOk (fds₁.set j (pairAt fds₁ j).join) = true :=
    dumpStateOk_of_pairs hjoined.pairs
  rw [hmodify, if_pos hdump] at hfinish
  cases hfinish
  exact hjoined

theorem Sound.waits (hs : Sound s) {t : Thread} (ho : Orderly s.fds (t :: s.threads)) :
    Sound (s.after c (.waits s.fds t)) :=
  ⟨hs.running, hs.pairs, ho⟩

theorem Sound.accept4 (hs : Sound s) (fd : Int) :
    Sound (s.after (.accept4 fd) (fakeSocketAccept4 s.fds fd)) := by
  rw [fakeSocketAccept4]
  split
  · exact hs.error _
  · split_ifs
    · exact hs.error _
    · exact hs.error _
    · cases hfinish : FakeSocket.finishAccept4 s.fds fd with
      | none => exact hs.waits (hs.orderly.accept4 fd)
      | some o => exact hs.finishAccept4 hfinish

theorem Sound.connect (hs : Sound s) {fd₁ fd₂ : Int}
    (hturn : s.inTurn (.call (.connect fd₁ fd₂)) = true) :
    Sound (s.after (.connect fd₁ fd₂) (fakeSocketConnect s.fds fd₁ fd₂)) := by
  rw [fakeSocketConnect]
  split
  · rename_i i₁ k₁ p₁ i₂ k₂ p₂ hlookup₁ hlookup₂
    obtain ⟨rfl, hp₁⟩ := lookup_eq_some.mp hlookup₁
    obtain ⟨rfl, hp₂⟩ := lookup_eq_some.mp hlookup₂
    split_ifs with hsame hodd hrefused
    · exact hs.error _
    · exact hs.error _
    · exact hs.error _
    · simp only [Bool.or_eq_true, not_or, Bool.not_eq_true] at hodd
      obtain ⟨rfl, rfl⟩ := hodd
      simp only [Machine.inTurn, hlookup₁, hlookup₂] at hturn
      have hgiven : p₁.fresh = true ∧ s.promised (number i₁ false) = false := by
        simp only [Bool.or_eq_true, not_or] at hrefused
        simpa [hsame, hrefused] using hturn
      obtain ⟨hfresh, hpromised⟩ := hgiven
      have hpair₁ := pairAt_of_getElem? hp₁
      have hfinish : FakeSocket.finishConnect
          (s.fds.set i₂ { p₂ with connectingFd := number i₁ false }) (number i₁ false) = none := by
        have hlookup : lookup (s.fds.set i₂ { p₂ with connectingFd := number i₁ false })
            (number i₁ false) = some (i₁, false, p₁) := by
          rw [lookup_eq_some, List.getElem?_set_ne (Ne.symm hsame)]
          exact ⟨rfl, hp₁⟩
        rw [FakeSocket.finishConnect, hlookup]
        exact if_pos (fresh_iff.mp hfresh).2.1
      dsimp only
      rw [hfinish]
      refine ⟨hs.running, pairs_connecting hs.pairs hp₂ _, ?_⟩
      apply hs.orderly.connect hp₂ (List.getElem?_eq_some_iff.mp hp₁).1
      · rwa [hpair₁]
      · exact not_promises hpromised
  · exact hs.error _

theorem Sound.finishPipe2 (hs : Sound s) (hmem : .pipe2 i ∈ s.threads)
    (hfinish : finishPipe2 s.fds i = some o) :
    Sound ({ s with threads := s.threads.erase (.pipe2 i) }.after .pipe2 o) := by
  obtain ⟨p, hp, rfl⟩ := Option.map_eq_some_iff.mp hfinish
  have hfresh := (hs.orderly.promised none i hmem).2
  rw [pairAt_of_getElem? hp] at hfresh
  have hs₁ : Sound { s with threads := s.threads.erase (.pipe2 i) } :=
    ⟨hs.running, hs.pairs, hs.orderly.erase _⟩
  apply hs₁.join hp hfresh (hs.orderly.not_promised_of_pipe2 hmem) (fun _ => rfl) (fun _ => rfl)
    (fun _ => rfl)
  intro n
  simp [Report.joins, first_of_fresh (hs.pairOk hp) hfresh, number_true, eq_comm]

theorem Sound.call (hs : Sound s) (hturn : s.inTurn (.call c) = true) :
    Sound (s.after c (c.enter s.fds)) := by
  cases c with
  | socket =>
      refine ⟨hs.running, fun i => ?_, hs.orderly.append⟩
      change PairOk _ i (pairAt (s.fds ++ [.new s.fds.length]) i)
      rw [pairAt_new]
      exact (hs.pairs i).silent fun _ => ⟨rfl, rfl, rfl, rfl⟩
  | pipe2 =>
      refine ⟨hs.running, fun i => ?_, hs.orderly.pipe2⟩
      change PairOk _ i (pairAt (s.fds ++ [.new s.fds.length]) i)
      rw [pairAt_new]
      exact hs.pairs i
  | listen fd => exact hs.listen (by simpa [Machine.inTurn] using hturn)
  | connect fd₁ fd₂ => exact hs.connect hturn
  | accept4 fd => exact hs.accept4 fd
  | read fd n => exact hs.read fd n
  | write fd r => exact hs.write fd r
  | shutdown fd => exact hs.shutdown fd
  | close fd =>
      simp only [Machine.inTurn, Bool.and_eq_true, Bool.not_eq_eq_eq_not, Bool.not_true] at hturn
      exact hs.close hturn.1 hturn.2

/-- A thread goes on that has waited. -/
theorem Sound.resume (hs : Sound s) {t : Thread} (hmem : t ∈ s.threads)
    (ho : t.resume s.fds = some o) :
    Sound ({ s with threads := s.threads.erase t }.after t.call o) := by
  have hs₁ : Sound { s with threads := s.threads.erase t } :=
    ⟨hs.running, hs.pairs, hs.orderly.erase _⟩
  cases t with
  | pipe2 i => exact hs.finishPipe2 hmem ho
  | connect fd₁ fd₂ =>
      apply hs₁.finishConnect ho _ (hs.orderly.firsts fd₁ fd₂ hmem)
      rintro j rfl
      exact hs.orderly.returning j fd₂ hmem
  | accept4 fd => exact hs₁.finishAccept4 ho

theorem Sound.step (hs : Sound s) {a : Action} (hstep : s.step a = some s')
    (hturn : s.inTurn a = true) : Sound s' := by
  unfold Machine.step at hstep
  rw [if_neg (by simp [hs.running])] at hstep
  cases a with
  | call c =>
      cases hstep
      exact hs.call hturn
  | resume t =>
      dsimp only at hstep
      split_ifs at hstep with hmem
      obtain ⟨o, ho, rfl⟩ := Option.map_eq_some_iff.mp hstep
      exact hs.resume hmem ho

theorem sound_new : Sound .new := by
  refine ⟨rfl, pairOk_new, ?_⟩
  constructor
  · exact fun _ => .inl rfl
  · intro o j h
    cases o with
    | none => cases h
    | some l => exact absurd h.symm (number_ne_closed j false)
  · intro o o' j h
    cases o with
    | none => cases h
    | some l => exact absurd h.symm (number_ne_closed j false)
  · exact fun _ => Nat.zero_le 1
  · nofun
  · nofun

theorem Sound.recordPipes (hs : Sound s) : RecordPipes s :=
  ⟨hs.running, fun i k => (hs.pairs i).inOrder k,
    fun _ k _ hp hopen => (hs.pairOk hp).unread k hopen,
    fun _ k _ hp hopen => (hs.pairOk hp).readable k hopen⟩

end

/-! ## Runs -/

end CoolOnline.FakeSocket
