import CoolOnline.Net.SocketPoll

/-! # No task of a poll is lost

Whatever the threads do: a poll with something in its queues is woken up, and a callback is invoked
once, in its turn, before two turns are over, unless it is cleared by `stop`.
-/

namespace CoolOnline.Polling

namespace SocketPoll

variable {p p' : SocketPoll}

section Fields

variable (p p' : SocketPoll)

@[simp] theorem wakeup_turn : p.wakeup.turn = p.turn := rfl
@[simp] theorem wakeup_turns : p.wakeup.turns = p.turns := rfl
@[simp] theorem wakeup_added : p.wakeup.added = p.added := rfl
@[simp] theorem wakeup_invoked : p.wakeup.invoked = p.invoked := rfl
@[simp] theorem wakeup_cleared : p.wakeup.cleared = p.cleared := rfl
@[simp] theorem wakeup_newCallbacks : p.wakeup.newCallbacks = p.newCallbacks := rfl
@[simp] theorem wakeup_taskQueuesEmpty : p.wakeup.taskQueuesEmpty = p.taskQueuesEmpty := rfl

@[simp] theorem queued_turn : (p.queued p').turn = p'.turn := by
  unfold queued
  split <;> rfl

@[simp] theorem queued_turns : (p.queued p').turns = p'.turns := by
  unfold queued
  split <;> rfl

@[simp] theorem queued_added : (p.queued p').added = p'.added := by
  unfold queued
  split <;> rfl

@[simp] theorem queued_invoked : (p.queued p').invoked = p'.invoked := by
  unfold queued
  split <;> rfl

@[simp] theorem queued_cleared : (p.queued p').cleared = p'.cleared := by
  unfold queued
  split <;> rfl

@[simp] theorem queued_newCallbacks : (p.queued p').newCallbacks = p'.newCallbacks := by
  unfold queued
  split <;> rfl

theorem wakeup_pipe_pos : 0 < p.wakeup.pipe := by
  simp only [wakeup, pipeCapacity]
  omega

end Fields

/-! ## What is kept -/

/-- The thread of a poll that has something to do is not going to sleep. -/
def Awake (p : SocketPoll) : Prop :=
  p.taskQueuesEmpty = false → 0 < p.pipe ∨ p.turn.willTake = true

/-- The callbacks that are still to be invoked, in their order. -/
def pending (p : SocketPoll) : List CallbackFn := p.turn.invoke ++ p.newCallbacks

structure Kept (p : SocketPoll) : Prop where
  awake : p.Awake
  once : ∀ fn, p.added.count fn =
    p.cleared.count fn + (p.invoked.count fn + p.pending.count fn)
  inOrder : (p.invoked ++ p.pending).Sublist p.added
  soon : ∀ fn ∈ p.pending, p.turns ≤ fn.born + 1
  /-- A callback that is queued when the turn can take no more was not there for a whole turn. -/
  later : p.turn.taken = true → ∀ fn ∈ p.newCallbacks, p.turns ≤ fn.born

theorem kept_new : new.Kept where
  awake := by simp [Awake, new, taskQueuesEmpty]
  once := by simp [new, pending, Turn.invoke]
  inOrder := by simp [new, pending, Turn.invoke]
  soon := by simp [new, pending, Turn.invoke]
  later := by simp [new]

/-- Nothing but the turn, the pipe and the sockets are changed. -/
structure SameTasks (p p' : SocketPoll) : Prop where
  invoke : p'.turn.invoke = p.turn.invoke
  newCallbacks : p'.newCallbacks = p.newCallbacks
  turns : p'.turns = p.turns
  added : p'.added = p.added
  invoked : p'.invoked = p.invoked
  cleared : p'.cleared = p.cleared

theorem SameTasks.kept (hsame : SameTasks p p') (h : p.Kept) (hawake : p'.Awake)
    (htaken : p'.turn.taken = true → p.turn.taken = true ∨ p.newCallbacks = []) : p'.Kept where
  awake := hawake
  once := by
    simp only [pending, hsame.invoke, hsame.newCallbacks, hsame.added, hsame.invoked, hsame.cleared]
    exact h.once
  inOrder := by
    simp only [pending, hsame.invoke, hsame.newCallbacks, hsame.added, hsame.invoked]
    exact h.inOrder
  soon := by
    simp only [pending, hsame.invoke, hsame.newCallbacks, hsame.turns]
    exact h.soon
  later := by
    intro ht fn hfn
    rw [hsame.newCallbacks] at hfn
    rw [hsame.turns]
    rcases htaken ht with htaken | hnone
    · exact h.later htaken fn hfn
    · rw [hnone] at hfn
      cases hfn

/-- The queues that grow wake the poll up if nothing else has done so. -/
theorem Awake.queued (h : p.Awake) (hpipe : p'.pipe = p.pipe) (hturn : p'.turn = p.turn) :
    (p.queued p').Awake := by
  intro _
  unfold SocketPoll.queued
  split
  · exact .inl (wakeup_pipe_pos p')
  · rename_i hempty
    rw [hpipe, hturn]
    exact h (by simpa using hempty)

theorem Awake.wakeup : p.wakeup.Awake := fun _ => .inl (wakeup_pipe_pos p)

theorem awake_of_empty (h : p.taskQueuesEmpty = true) : p.Awake := by
  intro hne
  rw [h] at hne
  cases hne

/-! ## Calls of other threads -/

theorem Kept.insertNewSocket (h : p.Kept) (socket : ℕ) : (p.insertNewSocket socket).Kept := by
  have hsame : SameTasks p (p.insertNewSocket socket) := by
    constructor <;> simp [SocketPoll.insertNewSocket]
  apply hsame.kept h (h.awake.queued rfl rfl)
  simp only [SocketPoll.insertNewSocket, queued_turn]
  exact .inl

theorem Kept.transferSocketTo (h : p.Kept) (transfer : SocketTransfer) :
    (p.transferSocketTo transfer).Kept := by
  have hsame : SameTasks p (p.transferSocketTo transfer) := by
    constructor <;> simp [SocketPoll.transferSocketTo]
  apply hsame.kept h (h.awake.queued rfl rfl)
  simp only [SocketPoll.transferSocketTo, queued_turn]
  exact .inl

theorem Kept.addCallback (h : p.Kept) (action : Action) : (p.addCallback action).Kept where
  awake := h.awake.queued rfl rfl
  once := by
    intro fn
    have honce := h.once fn
    simp only [SocketPoll.addCallback, pending, queued_turn, queued_newCallbacks, queued_added,
      queued_invoked, queued_cleared, List.count_append] at honce ⊢
    omega
  inOrder := by
    have horder := h.inOrder
    simp only [SocketPoll.addCallback, pending, queued_turn, queued_newCallbacks, queued_added,
      queued_invoked, ← List.append_assoc, List.append_sublist_append_right] at horder ⊢
    exact horder
  soon := by
    intro fn hfn
    simp only [SocketPoll.addCallback, pending, queued_turn, queued_newCallbacks,
      ← List.append_assoc, List.mem_append (t := [_])] at hfn
    simp only [SocketPoll.addCallback, queued_turns]
    rcases hfn with hfn | hnew
    · exact h.soon fn hfn
    · rw [List.mem_singleton.mp hnew]
      exact Nat.le_succ p.turns
  later := by
    intro htaken fn hfn
    simp only [SocketPoll.addCallback, queued_turn, queued_newCallbacks, queued_turns,
      List.mem_append] at htaken hfn ⊢
    rcases hfn with hfn | hnew
    · exact h.later htaken fn hfn
    · exact Nat.le_of_eq (congrArg CallbackFn.born (List.mem_singleton.mp hnew)).symm

theorem Kept.wakeup (h : p.Kept) : p.wakeup.Kept := by
  have hsame : SameTasks p p.wakeup := by constructor <;> rfl
  exact hsame.kept h Awake.wakeup .inl

theorem Kept.stop (h : p.Kept) : p.stop.Kept where
  awake := Awake.wakeup
  once := by
    intro fn
    have honce := h.once fn
    simp only [SocketPoll.stop, pending, wakeup_turn, wakeup_newCallbacks, wakeup_added,
      wakeup_invoked, wakeup_cleared, List.count_append, List.append_nil] at honce ⊢
    omega
  inOrder := by
    simp only [SocketPoll.stop, pending, wakeup_turn, wakeup_newCallbacks, wakeup_added,
      wakeup_invoked, List.append_nil]
    refine List.Sublist.trans ?_ h.inOrder
    exact List.Sublist.append_left (List.sublist_append_left _ _) _
  soon := by
    simp only [SocketPoll.stop, pending, wakeup_turn, wakeup_newCallbacks, wakeup_turns,
      List.append_nil]
    intro fn hfn
    exact h.soon fn (List.mem_append_left _ hfn)
  later := by
    simp [SocketPoll.stop]

/-! ## A turn -/

theorem Kept.endTurn {counts : Bool} (h : p.Kept) (hinvoke : p.turn.invoke = [])
    (htaken : counts = true → p.turn.taken = true) (hwill : p.turn.willTake = false) :
    (p.endTurn counts).Kept where
  awake := by
    intro hne
    rcases h.awake hne with hpipe | hturn
    · exact .inl hpipe
    · cases hwill.symm.trans hturn
  once := by
    have honce := h.once
    simp only [pending, hinvoke] at honce
    exact honce
  inOrder := by
    have horder := h.inOrder
    simp only [pending, hinvoke] at horder
    exact horder
  soon := by
    intro fn hfn
    have hmem : fn ∈ p.newCallbacks := hfn
    cases counts with
    | false => exact h.soon fn (List.mem_append_right _ hmem)
    | true => exact Nat.succ_le_succ (h.later (htaken rfl) fn hmem)
  later := by simp [SocketPoll.endTurn, Turn.taken]

theorem Kept.startHandling {counts : Bool} (h : p.Kept) (hinvoke : p.turn.invoke = [])
    (htaken : counts = true → p.turn.taken = true) (hwill : p.turn.willTake = false)
    (pollFds : List ℕ) : (p.startHandling counts pollFds).Kept := by
  unfold SocketPoll.startHandling
  split
  · exact h.endTurn hinvoke htaken hwill
  · apply SameTasks.kept (p := p) _ h
    · intro hne
      rcases h.awake hne with hpipe | hturn
      · exact .inl hpipe
      · cases hwill.symm.trans hturn
    · intro hcounts
      exact .inl (htaken hcounts)
    · constructor <;> first | rfl | exact hinvoke.symm

theorem Kept.takeTasks (h : p.Kept) (hinvoke : p.turn.invoke = []) (pollFds : List ℕ) :
    (p.takeTasks pollFds).Kept where
  awake := awake_of_empty rfl
  once := by
    have honce := h.once
    simp only [pending, hinvoke, List.nil_append] at honce
    simpa [SocketPoll.takeTasks, pending, Turn.invoke] using honce
  inOrder := by
    have horder := h.inOrder
    simp only [pending, hinvoke, List.nil_append] at horder
    simpa [SocketPoll.takeTasks, pending, Turn.invoke] using horder
  soon := by
    intro fn hfn
    have hmem : fn ∈ p.newCallbacks := by
      simpa [SocketPoll.takeTasks, pending, Turn.invoke] using hfn
    exact h.soon fn (List.mem_append_right _ hmem)
  later := by simp [SocketPoll.takeTasks]

/-- Only the sockets in the slots are changed. -/
theorem Kept.setSockets (h : p.Kept) (sockets : List (Option ℕ)) :
    Kept { p with pollSockets := sockets } :=
  ⟨h.awake, h.once, h.inOrder, h.soon, h.later⟩

theorem Kept.transfer (h : p.Kept) (pending : SocketTransfer) (expired : Bool) :
    (p.transfer pending expired).1.Kept := by
  unfold SocketPoll.transfer
  split
  · exact h
  · split
    · exact h
    · exact h.setSockets _

theorem Kept.visit (h : p.Kept) (i : ℕ) (sameFd isOpen : Bool) (disposition : Disposition) :
    (p.visit i sameFd isOpen disposition).1.Kept := by
  unfold SocketPoll.visit
  split
  · exact h
  · exact h
  · split
    · exact h
    · split
      · exact h
      · exact h.setSockets _

theorem Kept.eraseItems (h : p.Kept) (itemsErased : ℕ) : (p.eraseItems itemsErased).Kept := by
  unfold SocketPoll.eraseItems
  split
  · exact h
  · exact h.setSockets _

@[simp] theorem visit_turn (i : ℕ) (sameFd isOpen : Bool) (disposition : Disposition) :
    (p.visit i sameFd isOpen disposition).1.turn = p.turn := by
  unfold SocketPoll.visit
  repeat' split
  all_goals rfl

@[simp] theorem eraseItems_turn (itemsErased : ℕ) : (p.eraseItems itemsErased).turn = p.turn := by
  unfold SocketPoll.eraseItems
  split <;> rfl

/-- The turn goes on without what the tasks depend on. -/
theorem Kept.setTurn (h : p.Kept) (turn : Turn) (hinvoke : turn.invoke = p.turn.invoke)
    (hwill : p.turn.willTake = true → turn.willTake = true)
    (htaken : turn.taken = true → p.turn.taken = true) : Kept { p with turn := turn } := by
  apply SameTasks.kept (p := p) _ h
  · intro hne
    rcases h.awake hne with hpipe | hturn
    · exact .inl hpipe
    · exact .inr (hwill hturn)
  · intro ht
    exact .inl (htaken ht)
  · constructor <;> first | rfl | exact hinvoke

theorem Kept.readPipe {fds : List ℕ} {counts : Bool} (h : p.Kept)
    (hturn : p.turn = .polled fds true counts) :
    Kept { p with pipe := p.pipe - dumpSize, turn := .drained fds } := by
  apply SameTasks.kept (p := p) _ h
  · intro _
    exact .inr rfl
  · intro htaken
    cases htaken
  · constructor <;> simp [hturn, Turn.invoke]

theorem Kept.ppoll {fails : Bool} (h : p.Kept) (hturn : p.turn = .idle)
    (hp : p.ppoll fails = some p') : p'.Kept := by
  unfold SocketPoll.ppoll at hp
  split at hp
  · cases hp
  · cases hp
    have hpipe : p.taskQueuesEmpty = false → 0 < p.pipe := by
      intro hne
      rcases h.awake hne with hpipe | hwill
      · exact hpipe
      · rw [hturn] at hwill
        cases hwill
    apply SameTasks.kept (p := p) _ h
    · intro hne
      exact .inl (hpipe hne)
    · -- a turn that counts and takes nothing has found the pipe empty, so nothing was queued
      intro htaken
      right
      by_contra hnone
      have hpos : 0 < p.pipe := by
        apply hpipe
        simp [taskQueuesEmpty, hnone]
      simp [Turn.taken, hpos] at htaken
    · constructor <;> simp [hturn, Turn.invoke]

theorem Kept.invoke {fds : List ℕ} {fn : CallbackFn} {fns : List CallbackFn}
    {transfers : List SocketTransfer} (h : p.Kept)
    (hturn : p.turn = .invoking fds (fn :: fns) transfers) :
    Kept { p with turn := .invoking fds fns transfers, invoked := p.invoked ++ [fn] } where
  awake := by
    intro hne
    have hawake := h.awake hne
    rw [hturn] at hawake
    exact hawake
  once := by
    intro x
    have honce := h.once x
    simp only [pending, hturn, Turn.invoke, List.cons_append, List.count_cons, List.count_append,
      List.count_nil] at honce ⊢
    omega
  inOrder := by
    have horder := h.inOrder
    simpa [pending, hturn, Turn.invoke] using horder
  soon := by
    intro x hx
    apply h.soon x
    simp only [pending, hturn, Turn.invoke]
    exact List.mem_cons_of_mem fn hx
  later := by
    intro _
    exact h.later (by rw [hturn]; rfl)

/-- Every step of a poll, and of those who give it tasks, keeps it. -/
theorem step_kept {e : Event} {effect : Effect} (h : p.Kept)
    (hstep : p.step e = some (p', effect)) : p'.Kept := by
  cases e with
  | insertNewSocket socket =>
      cases hstep
      exact h.insertNewSocket socket
  | addTask id =>
      cases hstep
      exact h.addCallback _
  | transferSocketTo transfer =>
      cases hstep
      exact h.transferSocketTo transfer
  | wakeup =>
      cases hstep
      exact h.wakeup
  | stop =>
      cases hstep
      exact h.stop
  | removeSockets =>
      simp only [step] at hstep
      split at hstep
      · rename_i hturn
        cases hstep
        apply SameTasks.kept (p := p) _ h
        · intro hne
          apply h.awake
          simp only [taskQueuesEmpty, List.isEmpty_nil, Bool.true_and, Bool.and_eq_false_iff] at hne ⊢
          rcases hne with hne | hne <;> simp [hne]
        · exact .inl
        · constructor <;> rfl
      · cases hstep
  | ppoll fails =>
      simp only [step] at hstep
      split at hstep
      · rename_i hturn
        obtain ⟨q, hq, heq⟩ := Option.map_eq_some_iff.mp hstep
        cases heq
        exact h.ppoll hturn hq
      · cases hstep
  | readPipe =>
      simp only [step] at hstep
      split at hstep
      · rename_i hturn
        cases hstep
        exact h.readPipe hturn
      · cases hstep
  | takeTasks =>
      simp only [step] at hstep
      split at hstep
      · rename_i hturn
        cases hstep
        exact h.takeTasks (by rw [hturn]; rfl) _
      · cases hstep
  | invoke =>
      simp only [step] at hstep
      split at hstep
      · rename_i hturn
        cases hstep
        exact h.invoke hturn
      · cases hstep
  | transfer expired =>
      simp only [step] at hstep
      split at hstep
      · rename_i fds pending transfers hturn
        have hkept : Kept { p with turn := .invoking fds [] transfers } := by
          apply h.setTurn
          · rw [hturn]
            rfl
          · rw [hturn]
            exact id
          · rw [hturn]
            exact id
        have htransfer := hkept.transfer pending expired
        rw [Option.some.injEq] at hstep
        rw [hstep] at htransfer
        exact htransfer
      · cases hstep
  | startHandling =>
      simp only [step] at hstep
      split at hstep
      · rename_i hturn
        cases hstep
        exact h.startHandling (by rw [hturn]; rfl) (by rw [hturn]; exact id) (by rw [hturn]; rfl) _
      · rename_i hturn
        cases hstep
        exact h.startHandling (by rw [hturn]; rfl) (by rw [hturn]; exact id) (by rw [hturn]; rfl) _
      · cases hstep
  | handlePoll sameFd isOpen disposition =>
      simp only [step] at hstep
      split at hstep
      · rename_i counts fds i visited itemsErased hturn
        split at hstep
        · have hvisit := h.visit i sameFd isOpen disposition
          have hvisitTurn := (visit_turn (p := p) i sameFd isOpen disposition).trans hturn
          cases hstep
          exact hvisit.setTurn _ (by rw [hvisitTurn]; rfl) (by rw [hvisitTurn]; exact id)
            (by rw [hvisitTurn]; exact id)
        · cases hstep
      · cases hstep
  | endTurn =>
      simp only [step] at hstep
      split at hstep
      · rename_i counts fds i visited itemsErased hturn
        split at hstep
        · cases hstep
          have hturn' := (eraseItems_turn (p := p) itemsErased).trans hturn
          exact (h.eraseItems itemsErased).endTurn (by rw [hturn']; rfl) (by rw [hturn']; exact id)
            (by rw [hturn']; rfl)
        · cases hstep
      · cases hstep

end SocketPoll

namespace Polls

open SocketPoll

theorem call_kept {s s' : Polls} {k : ℕ} {f : SocketPoll → SocketPoll}
    (hf : ∀ p : SocketPoll, p.Kept → (f p).Kept) (h : ∀ p ∈ s.polls, p.Kept)
    (hcall : s.call k f = some s') : ∀ p ∈ s'.polls, p.Kept := by
  obtain ⟨p, hp, rfl⟩ := Option.map_eq_some_iff.mp hcall
  intro q hq
  rcases List.mem_or_eq_of_mem_set hq with hold | rfl
  · exact h q hold
  · exact hf p (h p (List.mem_of_getElem? hp))

theorem apply_kept {s s' : Polls} {effect : Effect} (h : ∀ p ∈ s.polls, p.Kept)
    (happly : s.apply effect = some s') : ∀ p ∈ s'.polls, p.Kept := by
  cases effect with
  | silent =>
      cases happly
      exact h
  | gone sockets =>
      cases happly
      exact h
  | move toPoll socket => exact call_kept (fun p hp => hp.addCallback _) h happly
  | insert poll socket => exact call_kept (fun p hp => hp.insertNewSocket _) h happly

theorem step_kept {s s' : Polls} {e : ℕ × Event} (h : ∀ p ∈ s.polls, p.Kept)
    (hstep : s.step e = some s') : ∀ p ∈ s'.polls, p.Kept := by
  obtain ⟨p, hp, hrest⟩ := Option.bind_eq_some_iff.mp hstep
  obtain ⟨r, hr, happly⟩ := Option.bind_eq_some_iff.mp hrest
  refine apply_kept ?_ happly
  intro q hq
  rcases List.mem_or_eq_of_mem_set hq with hold | rfl
  · exact h q hold
  · exact SocketPoll.step_kept (h p (List.mem_of_getElem? hp)) hr

theorem run_kept {n : ℕ} {s : Polls} {es : List (ℕ × Event)} (hrun : run step (new n) es = some s) :
    ∀ p ∈ s.polls, p.Kept := by
  apply run_invariant step (I := fun s : Polls => ∀ p ∈ s.polls, p.Kept) _ hrun
  · intro p hp
    rw [List.eq_of_mem_replicate hp]
    exact kept_new
  · intro s e s' hstep h
    exact step_kept h hstep

/-- In every run, the callbacks that were added to a poll are those that were cleared by `stop`,
those that were invoked and those that still will be, each as often as it was added and the latter
two in the order in which they were added; a callback is not still to be invoked when two turns
that count are over; and a poll with something in its queues has a byte in its pipe or is about to
take what is queued. -/
theorem callbacks_invoked_once {n : ℕ} {s : Polls} {es : List (ℕ × Event)}
    (hrun : run step (new n) es = some s) {p : SocketPoll} (hp : p ∈ s.polls) :
    p.added.Perm (p.cleared ++ (p.invoked ++ p.pending)) ∧
      (p.invoked ++ p.pending).Sublist p.added ∧
      (∀ fn ∈ p.added, fn.born + 2 ≤ p.turns → fn ∈ p.invoked ∨ fn ∈ p.cleared) ∧
      (p.taskQueuesEmpty = false → 0 < p.pipe ∨ p.turn.willTake = true) := by
  have h := run_kept hrun p hp
  have hperm : p.added.Perm (p.cleared ++ (p.invoked ++ p.pending)) := by
    rw [List.perm_iff_count]
    intro fn
    simpa using h.once fn
  refine ⟨hperm, h.inOrder, ?_, h.awake⟩
  intro fn hfn hturns
  have hmem := hperm.mem_iff.mp hfn
  simp only [List.mem_append] at hmem
  rcases hmem with hcleared | hinvoked | hpending
  · exact .inr hcleared
  · exact .inl hinvoked
  · have hsoon := h.soon fn hpending
    omega

/-- Two callbacks, and one more that is added while the thread is at work. -/
def twoTurns : List (ℕ × Event) :=
  [(0, .addTask 1), (0, .addTask 2), (0, .ppoll false), (0, .readPipe), (0, .takeTasks),
    (0, .invoke), (0, .addTask 3), (0, .invoke), (0, .startHandling), (0, .ppoll false),
    (0, .readPipe), (0, .takeTasks), (0, .invoke), (0, .startHandling)]

theorem callbacks_invoked_once_twoTurns :
    ∃ s, run step (new 1) twoTurns = some s ∧
      s.polls.map SocketPoll.invoked = [[⟨.task 1, 0⟩, ⟨.task 2, 0⟩, ⟨.task 3, 0⟩]] ∧
      ∀ p ∈ s.polls, ∀ fn ∈ p.added, fn.born + 2 ≤ p.turns → fn ∈ p.invoked ∨ fn ∈ p.cleared := by
  obtain ⟨s, hs, hinvoked⟩ : ∃ s, run step (new 1) twoTurns = some s ∧
      s.polls.map SocketPoll.invoked = [[⟨.task 1, 0⟩, ⟨.task 2, 0⟩, ⟨.task 3, 0⟩]] :=
    run_reaches _ _ _ (by decide)
  refine ⟨s, hs, hinvoked, ?_⟩
  intro p hp
  exact (callbacks_invoked_once hs hp).2.2.1

end Polls

end CoolOnline.Polling
