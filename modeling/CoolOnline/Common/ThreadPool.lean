import CoolOnline.Library.History
import CoolOnline.Library.Places

/-! # The pool of threads

`ThreadPool` of `common/ThreadPool.hpp`: one thread pushes work and runs it, with the help of the
threads of the pool. What is done while the mutex is held is one step.
-/

namespace CoolOnline

/-- Where a thread is in `work`. -/
inductive Worker
  /-- Not yet in front of the first wait. -/
  | starting
  | waiting
  | woken
  | executing (fn : ℕ)
  | exited
deriving DecidableEq, Repr

/-- Where the thread is that owns the pool; `returned` right after `run`. -/
inductive Caller
  | outside
  | returned
  | executing (fn : ℕ) (useThreads : Bool)
  | waiting (notified : Bool)
  | stopping
deriving DecidableEq, Repr

def Caller.notify : Caller → Caller
  | .waiting _ => .waiting true
  | caller => caller

/-- The pool, with all that was pushed, and what has been executed. -/
structure ThreadPool where
  maxConcurrency : ℕ
  work : List ℕ
  working : ℕ
  running : Bool
  shutdown : Bool
  threads : List Worker
  caller : Caller
  pushed : List ℕ
  finished : List ℕ
deriving DecidableEq, Repr

namespace ThreadPool

inductive Event
  | pushWork (fn : ℕ)
  | run
  /-- The caller is done with what it executes. -/
  | callerDone
  /-- The caller goes on after a wait for the completion. -/
  | resume
  /-- Another thread goes on with the mutex. -/
  | worker (i : ℕ)
  /-- A wait ends without a reason. -/
  | spurious (i : ℕ)
  | spuriousComplete
  | stop
  | join
  | start
deriving DecidableEq, Repr

/-- `_maxConcurrency - 1` threads are started with the pool. -/
def new (maxConcurrency : ℕ) : ThreadPool :=
  ⟨maxConcurrency, [], 0, false, false, List.replicate (maxConcurrency - 1) .starting, .outside,
    [], []⟩

variable (s : ThreadPool)

def callerIdle : Bool := s.caller = .outside || s.caller = .returned

/-- `_cond.notify_all`. -/
def notifyThreads : ThreadPool :=
  { s with threads := s.threads.map fun t => if t = .waiting then .woken else t }

/-- `runOne` from where it has executed, with `_complete.notify_all`. -/
def complete (fn : ℕ) : ThreadPool :=
  let working := s.working - 1
  { s with
    working := working
    finished := s.finished ++ [fn]
    caller := if s.work = [] ∧ working = 0 then s.caller.notify else s.caller }

def leave : ThreadPool := { s with running := false, caller := .returned }

/-- The rest of `run` from the loop on. -/
def callerNext (useThreads : Bool) : ThreadPool :=
  match s.work with
  | fn :: rest =>
      { s with work := rest, working := s.working + 1, caller := .executing fn useThreads }
  | [] => if useThreads ∧ 0 < s.working then { s with caller := .waiting false } else s.leave

/-- The loops of `work` up to where the mutex is released. -/
def workerNext (i : ℕ) : ThreadPool :=
  if s.shutdown then { s with threads := s.threads.set i .exited }
  else
    match s.running, s.work with
    | true, fn :: rest =>
        { s with
          work := rest, working := s.working + 1, threads := s.threads.set i (.executing fn) }
    | _, _ => { s with threads := s.threads.set i .waiting }

def startRun : ThreadPool :=
  let useThreads := decide (1 < s.threads.length) && decide (1 < s.work.length)
  let s := { s with running := true }
  (if useThreads then s.notifyThreads else s).callerNext useThreads

def step : Event → Option ThreadPool
  | .pushWork fn =>
      if s.callerIdle then
        some { s with work := s.work ++ [fn], pushed := s.pushed ++ [fn], caller := .outside }
      else none
  | .run => if s.callerIdle then some s.startRun else none
  | .callerDone =>
      match s.caller with
      | .executing fn useThreads => some ((s.complete fn).callerNext useThreads)
      | _ => none
  | .resume =>
      match s.caller with
      | .waiting true =>
          some (if s.working = 0 ∧ s.work = [] then s.leave
            else { s with caller := .waiting false })
      | _ => none
  | .worker i =>
      match s.threads[i]? with
      | some .starting =>
          some { s with threads := s.threads.set i (if s.shutdown then .exited else .waiting) }
      | some .woken => some (s.workerNext i)
      | some (.executing fn) => some ((s.complete fn).workerNext i)
      | _ => none
  | .spurious i =>
      if s.threads[i]? = some .waiting then some { s with threads := s.threads.set i .woken }
      else none
  | .spuriousComplete =>
      if s.caller = .waiting false then some { s with caller := .waiting true } else none
  | .stop =>
      if s.callerIdle then some (notifyThreads { s with shutdown := true, caller := .stopping })
      else none
  | .join =>
      if s.caller = .stopping ∧ ∀ t ∈ s.threads, t = .exited then
        some { s with threads := [], caller := .outside }
      else none
  | .start =>
      if s.callerIdle then
        some { s with
          shutdown := false
          threads := s.threads ++
            List.replicate (s.maxConcurrency - 1 - s.threads.length) .starting }
      else none

/-- A pool of one thread is never woken up without a reason. -/
def wokenForReason (s : ThreadPool) : Event → Bool
  | .spurious _ => s.threads.length ≠ 1
  | _ => true

/-! ## What is kept -/

end ThreadPool

def Worker.fns : Worker → List ℕ
  | .executing fn => [fn]
  | _ => []

def Caller.fns : Caller → List ℕ
  | .executing fn _ => [fn]
  | _ => []

/-- The caller is in `run`. -/
def Caller.runs : Caller → Bool
  | .executing _ _ => true
  | .waiting _ => true
  | _ => false

namespace ThreadPool

variable {s s' : ThreadPool}

def threadFns (s : ThreadPool) : List ℕ := s.threads.flatMap Worker.fns

/-- What is being executed. -/
def executing (s : ThreadPool) : List ℕ := s.caller.fns ++ s.threadFns

/-- What was pushed is finished, in `current` or still to do, and `current` is counted. -/
structure Counts (s : ThreadPool) (current : List ℕ) : Prop where
  working : s.working = current.length
  once : ∀ x, s.pushed.count x = s.finished.count x + (current.count x + s.work.count x)

structure Kept (s : ThreadPool) : Prop where
  counts : s.Counts s.executing
  running : s.running = s.caller.runs
  idle : s.running = false → s.threadFns = []
  /-- Without the threads, the caller executes alone. -/
  alone : ∀ fn, s.caller = .executing fn false →
    s.threadFns = [] ∧ (s.work = [] ∨ s.threads.length ≤ 1)
  /-- A single thread is woken up to exit. -/
  few : s.threads.length ≤ 1 → s.threadFns = [] ∧ (.woken ∈ s.threads → s.shutdown = true)
  shutdown : s.shutdown = true → s.caller = .stopping ∨ s.threads = []
  waits : ∀ notified, s.caller = .waiting notified →
    s.work = [] ∧ (notified = false → 0 < s.working)
  returned : s.caller = .returned → s.work = []

theorem Counts.of_perm {current current' : List ℕ} (h : s.Counts current)
    (hperm : current.Perm current') : s.Counts current' where
  working := h.working.trans hperm.length_eq
  once := by
    intro x
    rw [← hperm.count_eq x]
    exact h.once x

/-- Something is taken from the work. -/
theorem Counts.take {current rest : List ℕ} {fn : ℕ} (h : s.Counts current)
    (hwork : s.work = fn :: rest) :
    Counts { s with work := rest, working := s.working + 1 } (fn :: current) where
  working := congrArg (· + 1) h.working
  once := by
    intro x
    have honce := h.once x
    simp only [hwork, List.count_cons] at honce ⊢
    omega

theorem Counts.complete {current : List ℕ} {fn : ℕ} (h : s.Counts (fn :: current)) :
    Counts { s with working := s.working - 1, finished := s.finished ++ [fn] } current where
  working := by
    have hworking := h.working
    rw [List.length_cons] at hworking
    simp [hworking]
  once := by
    intro x
    have honce := h.once x
    simp only [List.count_cons, List.count_append, List.count_nil] at honce ⊢
    omega

/-! ## The threads -/

/-- The threads when one of them has become another. -/
theorem threadFns_set_perm {i : ℕ} {t : Worker} (h : s.threads[i]? = some t) (t' : Worker) :
    ((s.threads.set i t').flatMap Worker.fns ++ t.fns).Perm (s.threadFns ++ t'.fns) :=
  flatMap_set_perm Worker.fns h t'

theorem threadFns_set_eq_nil {i : ℕ} (h : s.threadFns = []) {t' : Worker} (ht : t'.fns = []) :
    (s.threads.set i t').flatMap Worker.fns = [] := by
  rw [threadFns, List.flatMap_eq_nil_iff] at h
  rw [List.flatMap_eq_nil_iff]
  intro t hmem
  rcases List.mem_or_eq_of_mem_set hmem with hold | rfl
  · exact h t hold
  · exact ht

@[simp] theorem threadFns_notifyThreads : s.notifyThreads.threadFns = s.threadFns := by
  simp only [threadFns, notifyThreads, List.flatMap_map]
  congr 1
  funext t
  split
  · rename_i ht
    rw [ht]
    rfl
  · rfl

theorem complete_caller_fns (fn : ℕ) : (s.complete fn).caller.fns = s.caller.fns := by
  simp only [complete]
  split
  · cases s.caller <;> rfl
  · rfl

theorem complete_caller_runs (fn : ℕ) : (s.complete fn).caller.runs = s.caller.runs := by
  simp only [complete]
  split
  · cases s.caller <;> rfl
  · rfl

theorem caller_of_complete_executing (fn : ℕ) {fn' : ℕ} {useThreads : Bool}
    (h : (s.complete fn).caller = .executing fn' useThreads) :
    s.caller = .executing fn' useThreads := by
  simp only [complete] at h
  split at h
  · revert h
    cases s.caller <;> simp [Caller.notify]
  · exact h

/-- A caller that is still to be notified waits for something else. -/
theorem caller_of_complete_waiting (fn : ℕ) {notified : Bool}
    (h : (s.complete fn).caller = .waiting notified) : ∃ notified', s.caller = .waiting notified' ∧
      (notified = false → s.work = [] → 0 < (s.complete fn).working) := by
  simp only [complete] at h ⊢
  split at h
  · revert h
    cases hcaller : s.caller <;> simp [Caller.notify]
    rintro rfl
    simp
  · rename_i hmore
    refine ⟨notified, h, ?_⟩
    intro _ hwork
    exact Nat.pos_of_ne_zero fun hzero => hmore ⟨hwork, hzero⟩

/-- A thread that executes nothing goes on to where it executes nothing. -/
theorem Kept.setIdle {i : ℕ} {t t' : Worker} (h : s.Kept) (hi : s.threads[i]? = some t)
    (ht : t.fns = []) (ht' : t'.fns = [])
    (hwoken : s.threads.length ≤ 1 → t' = .woken → s.shutdown = true) :
    Kept { s with threads := s.threads.set i t' } where
  counts := by
    have hperm := threadFns_set_perm hi t'
    rw [ht, ht', List.append_nil, List.append_nil] at hperm
    have hcounts : s.Counts (s.caller.fns ++ (s.threads.set i t').flatMap Worker.fns) :=
      h.counts.of_perm (hperm.symm.append_left _)
    exact ⟨hcounts.working, hcounts.once⟩
  running := h.running
  idle := by
    intro hrunning
    exact threadFns_set_eq_nil (h.idle hrunning) ht'
  alone := by
    intro fn hcaller
    obtain ⟨hfns, hwork⟩ := h.alone fn hcaller
    refine ⟨threadFns_set_eq_nil hfns ht', ?_⟩
    simpa only [List.length_set] using hwork
  few := by
    intro hlength
    simp only [List.length_set] at hlength
    obtain ⟨hfns, hshutdown⟩ := h.few hlength
    refine ⟨threadFns_set_eq_nil hfns ht', ?_⟩
    intro hmem
    rcases List.mem_or_eq_of_mem_set hmem with hold | heq
    · exact hshutdown hold
    · exact hwoken hlength heq.symm
  shutdown := by
    intro hshutdown
    rcases h.shutdown hshutdown with hstop | hnone
    · exact .inl hstop
    · exact .inr (by simp [hnone])
  waits := h.waits
  returned := h.returned

/-- A thread is done with what it executes, and has not gone on. -/
theorem Kept.completeWorker {i fn : ℕ} (h : s.Kept) (hi : s.threads[i]? = some (.executing fn)) :
    Kept { s.complete fn with threads := s.threads.set i .waiting } ∧ ¬ s.threads.length ≤ 1 ∧
      s.running = true := by
  have hperm := threadFns_set_perm hi .waiting
  simp only [Worker.fns, List.append_nil] at hperm
  have hne : s.threadFns ≠ [] := by
    intro hnil
    rw [hnil] at hperm
    simpa using hperm.length_eq
  have hmany : ¬ s.threads.length ≤ 1 := fun hlength => hne (h.few hlength).1
  have hrunning : s.running = true := by
    by_contra hstopped
    exact hne (h.idle (by simpa using hstopped))
  have hcounts : Counts { s with working := s.working - 1, finished := s.finished ++ [fn] }
      (s.caller.fns ++ (s.threads.set i .waiting).flatMap Worker.fns) := by
    apply Counts.complete
    refine h.counts.of_perm ?_
    rw [executing]
    refine (hperm.symm.append_left _).trans ?_
    rw [← List.append_assoc]
    exact List.perm_append_singleton _ _
  refine ⟨⟨?_, ?_, ?_, ?_, ?_, ?_, ?_, ?_⟩, hmany, hrunning⟩
  · have hfns : (s.complete fn).caller.fns = s.caller.fns := complete_caller_fns fn
    refine ⟨hcounts.working.trans ?_, ?_⟩
    · rw [executing, hfns]
      rfl
    · intro x
      rw [executing, hfns]
      exact hcounts.once x
  · exact h.running.trans (complete_caller_runs fn).symm
  · intro hstopped
    cases hrunning.symm.trans hstopped
  · intro fn' hcaller
    have halone := h.alone fn' (caller_of_complete_executing fn hcaller)
    exact (hne halone.1).elim
  · intro hlength
    simp only [List.length_set] at hlength
    exact (hmany hlength).elim
  · intro hshutdown
    rcases h.shutdown hshutdown with hstop | hnone
    · rw [h.running, hstop] at hrunning
      cases hrunning
    · simp [hnone] at hi
  · intro notified hcaller
    obtain ⟨notified', hbefore, hpos⟩ := caller_of_complete_waiting fn hcaller
    refine ⟨(h.waits notified' hbefore).1, ?_⟩
    intro hnot
    exact hpos hnot (h.waits notified' hbefore).1
  · intro hcaller
    have hruns := (complete_caller_runs (s := s) fn).trans (h.running.symm.trans hrunning)
    rw [show (s.complete fn).caller = .returned from hcaller] at hruns
    cases hruns

/-- A thread goes on in its loops; it is there only for a reason. -/
theorem Kept.workerNext {i : ℕ} (h : s.Kept) (hi : s.threads[i]? = some .waiting)
    (hreason : s.threads.length ≤ 1 → s.shutdown = true) : (s.workerNext i).Kept := by
  unfold ThreadPool.workerNext
  split
  · exact h.setIdle hi rfl rfl fun _ ht => by cases ht
  · rename_i hshutdown
    split
    · rename_i fn rest hrunning hwork
      have hmany : ¬ s.threads.length ≤ 1 := fun hlength => hshutdown (hreason hlength)
      have hperm := threadFns_set_perm hi (.executing fn)
      simp only [Worker.fns, List.append_nil] at hperm
      have hcounts := h.counts.take hwork
      constructor
      · have hexecuting : (fn :: s.executing).Perm
            (s.caller.fns ++ (s.threads.set i (.executing fn)).flatMap Worker.fns) := by
          refine List.Perm.trans ?_ (hperm.symm.append_left _)
          rw [← List.append_assoc]
          exact (List.perm_append_singleton _ _).symm
        have hmoved := hcounts.of_perm hexecuting
        exact ⟨hmoved.working, hmoved.once⟩
      · exact h.running
      · intro hstopped
        cases hrunning.symm.trans hstopped
      · intro fn' hcaller
        rcases (h.alone fn' hcaller).2 with hnone | hlength
        · cases hwork.symm.trans hnone
        · exact (hmany hlength).elim
      · intro hlength
        simp only [List.length_set] at hlength
        exact (hmany hlength).elim
      · intro hstop
        exact (hshutdown hstop).elim
      · intro notified hcaller
        cases hwork.symm.trans (h.waits notified hcaller).1
      · intro hcaller
        cases hwork.symm.trans (h.returned hcaller)
    · exact h.setIdle hi rfl rfl fun _ ht => by cases ht

theorem workerNext_set (i : ℕ) (t : Worker) :
    workerNext { s with threads := s.threads.set i t } i = s.workerNext i := by
  unfold ThreadPool.workerNext
  simp only [List.set_set]

/-- The caller in its loop, where it executes nothing. -/
structure InLoop (s : ThreadPool) (useThreads : Bool) : Prop where
  counts : s.Counts s.threadFns
  running : s.running = true
  alone : useThreads = false → s.threadFns = [] ∧ (s.work.length ≤ 1 ∨ s.threads.length ≤ 1)
  few : s.threads.length ≤ 1 → s.threadFns = [] ∧ (.woken ∈ s.threads → s.shutdown = true)
  shutdown : s.shutdown = true → s.threads = []

/-- Nobody executes anything, and the caller is not in `run`. -/
theorem kept_of_idle (hcaller : s.caller.runs = false) (hrunning : s.running = false)
    (hfns : s.threadFns = []) (hcounts : s.Counts [])
    (hfew : s.threads.length ≤ 1 → .woken ∈ s.threads → s.shutdown = true)
    (hshutdown : s.shutdown = true → s.caller = .stopping ∨ s.threads = [])
    (hreturned : s.caller = .returned → s.work = []) : s.Kept where
  counts := by
    have hnone : s.caller.fns = [] := by
      revert hcaller
      cases s.caller <;> simp [Caller.runs, Caller.fns]
    rwa [executing, hnone, hfns]
  running := hrunning.trans hcaller.symm
  idle _ := hfns
  alone := by
    intro fn hexecuting
    rw [hexecuting] at hcaller
    cases hcaller
  few hlength := ⟨hfns, hfew hlength⟩
  shutdown := hshutdown
  waits := by
    intro notified hwaiting
    rw [hwaiting] at hcaller
    cases hcaller
  returned := hreturned

theorem Kept.leave {useThreads : Bool} (h : s.InLoop useThreads) (hfns : s.threadFns = [])
    (hwork : s.work = []) : s.leave.Kept := by
  have hcounts := h.counts
  rw [hfns] at hcounts
  exact kept_of_idle rfl rfl hfns ⟨hcounts.working, hcounts.once⟩ (fun hlength => (h.few hlength).2)
    (fun hshutdown => .inr (h.shutdown hshutdown)) fun _ => hwork

theorem InLoop.callerNext {useThreads : Bool} (h : s.InLoop useThreads) :
    (s.callerNext useThreads).Kept := by
  unfold ThreadPool.callerNext
  split
  · rename_i fn rest hwork
    have htake := h.counts.take hwork
    constructor
    · exact ⟨htake.working, htake.once⟩
    · exact h.running
    · intro hstopped
      cases h.running.symm.trans hstopped
    · intro fn' hcaller
      injection hcaller with _ huse
      obtain ⟨hfns, hfew⟩ := h.alone huse
      refine ⟨hfns, ?_⟩
      rcases hfew with hone | hlength
      · left
        simpa [hwork] using hone
      · exact .inr hlength
    · exact h.few
    · intro hshutdown
      exact .inr (h.shutdown hshutdown)
    · intro notified hcaller
      cases hcaller
    · intro hcaller
      cases hcaller
  · rename_i hwork
    split
    · rename_i hwaits
      constructor
      · exact ⟨h.counts.working, h.counts.once⟩
      · exact h.running
      · intro hstopped
        cases h.running.symm.trans hstopped
      · intro fn hcaller
        cases hcaller
      · exact h.few
      · intro hshutdown
        exact .inr (h.shutdown hshutdown)
      · intro notified _
        exact ⟨hwork, fun _ => hwaits.2⟩
      · intro hcaller
        cases hcaller
    · rename_i hnot
      refine Kept.leave h ?_ hwork
      cases useThreads with
      | false => exact (h.alone rfl).1
      | true =>
          have hzero : s.working = 0 := by simpa using hnot
          exact List.length_eq_zero_iff.mp (h.counts.working.symm.trans hzero)

theorem callerIdle_iff : s.callerIdle = true ↔ s.caller = .outside ∨ s.caller = .returned := by
  simp [callerIdle]

theorem Kept.fns_of_callerIdle (h : s.Kept) (hidle : s.callerIdle = true) :
    s.running = false ∧ s.threadFns = [] ∧ s.Counts [] := by
  have hcaller : s.caller.runs = false ∧ s.caller.fns = [] := by
    rcases callerIdle_iff.mp hidle with hc | hc <;> rw [hc] <;> exact ⟨rfl, rfl⟩
  have hrunning := h.running.trans hcaller.1
  have hfns := h.idle hrunning
  have hcounts := h.counts
  rw [executing, hcaller.2, hfns] at hcounts
  exact ⟨hrunning, hfns, hcounts⟩

theorem Kept.not_shutdown_of_callerIdle (h : s.Kept) (hidle : s.callerIdle = true)
    (hshutdown : s.shutdown = true) : s.threads = [] := by
  rcases h.shutdown hshutdown with hstop | hnone
  · rcases callerIdle_iff.mp hidle with hc | hc <;> cases hstop.symm.trans hc
  · exact hnone

theorem Kept.startRun (h : s.Kept) (hidle : s.callerIdle = true) : s.startRun.Kept := by
  obtain ⟨-, hfns, hcounts⟩ := h.fns_of_callerIdle hidle
  have hshutdown := h.not_shutdown_of_callerIdle hidle
  apply InLoop.callerNext
  split
  · rename_i huse
    have hmany : 1 < s.threads.length := by simp_all
    constructor
    · rw [threadFns_notifyThreads]
      simp only [threadFns] at hfns ⊢
      rw [hfns]
      exact ⟨hcounts.working, hcounts.once⟩
    · rfl
    · intro hnot
      rw [huse] at hnot
      cases hnot
    · intro hlength
      simp only [notifyThreads, List.length_map] at hlength
      omega
    · intro hstop
      rw [hshutdown hstop] at hmany
      cases hmany
  · rename_i huse
    constructor
    · simp only [threadFns] at hfns ⊢
      rw [hfns]
      exact ⟨hcounts.working, hcounts.once⟩
    · rfl
    · intro _
      refine ⟨hfns, ?_⟩
      simp only [Bool.and_eq_true, decide_eq_true_eq] at huse
      simp only
      omega
    · exact h.few
    · exact hshutdown

theorem Kept.callerDone {fn : ℕ} {useThreads : Bool} (h : s.Kept)
    (hcaller : s.caller = .executing fn useThreads) :
    ((s.complete fn).callerNext useThreads).Kept := by
  apply InLoop.callerNext
  have hcounts := h.counts
  rw [executing, hcaller] at hcounts
  have hdone := hcounts.complete
  have hrunning : s.running = true := by
    rw [h.running, hcaller]
    rfl
  constructor
  · exact ⟨hdone.working, hdone.once⟩
  · exact hrunning
  · intro huse
    rw [huse] at hcaller
    obtain ⟨hfns, hwork⟩ := h.alone fn hcaller
    refine ⟨hfns, ?_⟩
    rcases hwork with hnone | hlength
    · left
      simp [complete, hnone]
    · exact .inr hlength
  · exact h.few
  · intro hshutdown
    rcases h.shutdown hshutdown with hstop | hnone
    · cases hstop.symm.trans hcaller
    · exact hnone

theorem Kept.resume (h : s.Kept) (hcaller : s.caller = .waiting true) :
    (if s.working = 0 ∧ s.work = [] then s.leave
      else { s with caller := .waiting false }).Kept := by
  have hcounts := h.counts
  have hrunning : s.running = true := by
    rw [h.running, hcaller]
    rfl
  have hwork := (h.waits true hcaller).1
  rw [executing, hcaller] at hcounts
  have hshutdown : s.shutdown = true → s.threads = [] := by
    intro hshutdown
    rcases h.shutdown hshutdown with hstop | hnone
    · cases hstop.symm.trans hcaller
    · exact hnone
  split
  · rename_i hend
    have hfns : s.threadFns = [] :=
      List.length_eq_zero_iff.mp (hcounts.working.symm.trans hend.1)
    have hloop : s.InLoop true := by
      refine ⟨hcounts, hrunning, ?_, h.few, hshutdown⟩
      intro huse
      cases huse
    exact Kept.leave hloop hfns hwork
  · rename_i hmore
    constructor
    · exact ⟨hcounts.working, hcounts.once⟩
    · exact hrunning
    · intro hstopped
      cases hrunning.symm.trans hstopped
    · intro fn hexecuting
      cases hexecuting
    · exact h.few
    · intro hstop
      exact .inr (hshutdown hstop)
    · intro notified _
      refine ⟨hwork, ?_⟩
      intro _
      exact Nat.pos_of_ne_zero fun hzero => hmore ⟨hzero, hwork⟩
    · intro hreturned
      cases hreturned

theorem step_kept {e : Event} (h : s.Kept) (hreason : s.wokenForReason e = true)
    (hstep : s.step e = some s') : s'.Kept := by
  cases e with
  | pushWork fn =>
      simp only [step] at hstep
      split at hstep
      · rename_i hidle
        obtain ⟨hrunning, hfns, hcounts⟩ := h.fns_of_callerIdle hidle
        cases hstep
        refine kept_of_idle rfl hrunning hfns ⟨hcounts.working, ?_⟩
          (fun hlength => (h.few hlength).2) (fun hshutdown => .inr (h.not_shutdown_of_callerIdle hidle hshutdown)) (by simp)
        intro x
        have honce := hcounts.once x
        simp only [List.count_append, List.count_nil] at honce ⊢
        omega
      · cases hstep
  | run =>
      simp only [step] at hstep
      split at hstep
      · rename_i hidle
        cases hstep
        exact h.startRun hidle
      · cases hstep
  | callerDone =>
      simp only [step] at hstep
      split at hstep
      · rename_i hcaller
        cases hstep
        exact h.callerDone hcaller
      · cases hstep
  | resume =>
      simp only [step] at hstep
      split at hstep
      · rename_i hcaller
        cases hstep
        exact h.resume hcaller
      · cases hstep
  | worker i =>
      simp only [step] at hstep
      split at hstep
      · rename_i hi
        cases hstep
        apply h.setIdle hi rfl
        · split <;> rfl
        · intro _ hwoken
          split at hwoken <;> cases hwoken
      · rename_i hi
        cases hstep
        have hlt : i < s.threads.length := (List.getElem?_eq_some_iff.mp hi).1
        have hkept : Kept { s with threads := s.threads.set i .waiting } :=
          h.setIdle hi rfl rfl fun _ ht => by cases ht
        have hnext := hkept.workerNext (List.getElem?_set_self hlt) (by
          intro hlength
          simp only [List.length_set] at hlength
          exact (h.few hlength).2 (List.mem_of_getElem? hi))
        rwa [workerNext_set] at hnext
      · rename_i fn hi
        cases hstep
        have hlt : i < s.threads.length := (List.getElem?_eq_some_iff.mp hi).1
        obtain ⟨hkept, hmany, -⟩ := h.completeWorker hi
        have hnext := hkept.workerNext (List.getElem?_set_self hlt) (by
          intro hlength
          simp only [List.length_set] at hlength
          exact (hmany hlength).elim)
        exact (workerNext_set (s := s.complete fn) i .waiting) ▸ hnext
      · cases hstep
  | spurious i =>
      simp only [step] at hstep
      split at hstep
      · rename_i hi
        cases hstep
        apply h.setIdle hi rfl rfl
        intro hlength _
        have hlt : i < s.threads.length := (List.getElem?_eq_some_iff.mp hi).1
        simp [wokenForReason] at hreason
        omega
      · cases hstep
  | spuriousComplete =>
      simp only [step] at hstep
      split at hstep
      · rename_i hcaller
        cases hstep
        have hcounts := h.counts
        rw [executing, hcaller] at hcounts
        constructor
        · exact ⟨hcounts.working, hcounts.once⟩
        · rw [h.running, hcaller]
          rfl
        · exact h.idle
        · intro fn hexecuting
          cases hexecuting
        · exact h.few
        · intro hshutdown
          rcases h.shutdown hshutdown with hstop | hnone
          · cases hstop.symm.trans hcaller
          · exact .inr hnone
        · intro notified hwaiting
          injection hwaiting with hnotified
          refine ⟨(h.waits false hcaller).1, ?_⟩
          intro hnot
          cases hnotified.trans hnot
        · intro hreturned
          cases hreturned
      · cases hstep
  | stop =>
      simp only [step] at hstep
      split at hstep
      · rename_i hidle
        obtain ⟨hrunning, hfns, hcounts⟩ := h.fns_of_callerIdle hidle
        cases hstep
        have hfns' := threadFns_notifyThreads (s := { s with shutdown := true, caller := .stopping })
        exact kept_of_idle rfl hrunning (hfns'.trans hfns) ⟨hcounts.working, hcounts.once⟩
          (fun _ _ => rfl) (fun _ => .inl rfl) (by simp [notifyThreads])
      · cases hstep
  | join =>
      simp only [step] at hstep
      split at hstep
      · rename_i hexited
        cases hstep
        have hrunning : s.running = false := by
          rw [h.running, hexited.1]
          rfl
        have hcounts := h.counts
        rw [executing, hexited.1, h.idle hrunning] at hcounts
        exact kept_of_idle rfl hrunning rfl ⟨hcounts.working, hcounts.once⟩ (by simp)
          (fun _ => .inr rfl) (by simp)
      · cases hstep
  | start =>
      simp only [step] at hstep
      split at hstep
      · rename_i hidle
        obtain ⟨hrunning, hfns, hcounts⟩ := h.fns_of_callerIdle hidle
        cases hstep
        have hfns' (k : ℕ) : (s.threads ++ List.replicate k Worker.starting).flatMap Worker.fns = [] := by
          rw [List.flatMap_append, ← threadFns, hfns, List.nil_append, List.flatMap_eq_nil_iff]
          intro t ht
          rw [List.eq_of_mem_replicate ht]
          rfl
        refine kept_of_idle (h.running.symm.trans hrunning) hrunning (hfns' _)
          ⟨hcounts.working, hcounts.once⟩ ?_ (by simp) h.returned
        intro hlength hmem
        rw [List.length_append] at hlength
        rcases List.mem_append.mp hmem with hold | hnew
        · have hshutdown := (h.few (by omega)).2 hold
          rw [h.not_shutdown_of_callerIdle hidle hshutdown] at hold
          cases hold
        · cases List.eq_of_mem_replicate hnew
      · cases hstep

theorem kept_new (maxConcurrency : ℕ) : (new maxConcurrency).Kept := by
  have hfns : (new maxConcurrency).threadFns = [] := by
    rw [threadFns, List.flatMap_eq_nil_iff]
    intro t ht
    rw [List.eq_of_mem_replicate ht]
    rfl
  refine kept_of_idle rfl rfl hfns ⟨rfl, fun _ => rfl⟩ ?_ (by simp [new]) (by simp [new])
  intro _ hmem
  cases List.eq_of_mem_replicate hmem

/-- In every run of a pool of any size, whatever the order of the threads, where a single thread is
never woken up without a reason: what was pushed is finished, being executed or still to do, each as
often as it was pushed; `run` returns when all of it is finished and nobody executes anything; and
when its caller waits for the others, one of them executes something. -/
theorem run_waits_for_all {maxConcurrency : ℕ} {s : ThreadPool} {es : List Event}
    (hrun : CoolOnline.run (stepIf step wokenForReason) (new maxConcurrency) es = some s) :
    s.pushed.Perm (s.finished ++ (s.executing ++ s.work)) ∧
      (s.caller = .returned → s.pushed.Perm s.finished ∧ s.threadFns = [] ∧ s.working = 0) ∧
      (s.caller = .waiting false → ∃ fn, .executing fn ∈ s.threads) := by
  have h : s.Kept := by
    apply run_invariant (stepIf step wokenForReason) (I := Kept) _ hrun (kept_new maxConcurrency)
    intro s e s' hstep h
    obtain ⟨hreason, hstep⟩ := (stepIf_eq_some step).mp hstep
    exact step_kept h hreason hstep
  have hperm : s.pushed.Perm (s.finished ++ (s.executing ++ s.work)) := by
    rw [List.perm_iff_count]
    intro x
    simpa only [List.count_append] using h.counts.once x
  refine ⟨hperm, ?_, ?_⟩
  · intro hreturned
    obtain ⟨-, hfns, hcounts⟩ := h.fns_of_callerIdle (callerIdle_iff.mpr (.inr hreturned))
    refine ⟨?_, hfns, hcounts.working⟩
    rw [executing, hreturned, hfns, h.returned hreturned] at hperm
    simpa [Caller.fns] using hperm
  · intro hwaiting
    have hpos := (h.waits false hwaiting).2 rfl
    have hcounts := h.counts
    rw [executing, hwaiting] at hcounts
    have hne : s.threadFns ≠ [] := by
      intro hnil
      rw [hcounts.working, hnil] at hpos
      cases hpos
    obtain ⟨fn, hfn⟩ := List.exists_mem_of_ne_nil _ hne
    obtain ⟨t, ht, hmem⟩ := List.mem_flatMap.mp hfn
    cases t with
    | executing fn' => exact ⟨fn', ht⟩
    | starting => cases hmem
    | waiting => cases hmem
    | woken => cases hmem
    | exited => cases hmem

/-- Three pieces of work and two threads, one of which is late. -/
def threePieces : List Event :=
  [.worker 0, .worker 1, .pushWork 1, .pushWork 2, .pushWork 3, .run, .worker 0, .callerDone,
    .callerDone, .worker 1, .worker 0, .resume]

theorem run_waits_for_all_threePieces :
    ∃ s, CoolOnline.run (stepIf step wokenForReason) (new 3) threePieces = some s ∧
      s.caller = .returned ∧ s.finished = [1, 3, 2] ∧ s.pushed.Perm s.finished := by
  obtain ⟨s, hs, hreturned, hfinished⟩ : ∃ s,
      CoolOnline.run (stepIf step wokenForReason) (new 3) threePieces = some s ∧
        s.caller = .returned ∧ s.finished = [1, 3, 2] := run_reaches _ _ _ (by decide)
  exact ⟨s, hs, hreturned, hfinished, ((run_waits_for_all hs).2.1 hreturned).1⟩

/-- A single thread that is woken up without a reason is not waited for. -/
example : ((CoolOnline.run step (new 2) [.worker 0, .pushWork 1, .pushWork 2, .run, .spurious 0,
    .worker 0, .callerDone]).map fun s => (s.caller, s.threads)) =
      some (.returned, [.executing 2]) := by decide

end ThreadPool

end CoolOnline
