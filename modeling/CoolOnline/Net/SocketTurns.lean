import Mathlib.Data.List.Nodup
import CoolOnline.Net.SocketTransfers

/-! # The loop over the sockets of a poll

A turn handles each socket that was polled once, whichever it begins with, and looks for it where it
is. No turn begins with an empty slot, unless a socket was moved away in the turn it arrived in.
-/

namespace CoolOnline.Polling

/-! ## Going down and around -/

/-- The index after a number of rounds. -/
def indexAfter (size start rounds : ℕ) : ℕ := (start + (size - rounds)) % size

theorem indexAfter_of_lt {size start rounds : ℕ} (hstart : start < size) (hle : rounds ≤ size) :
    indexAfter size start rounds = if rounds ≤ start then start - rounds
      else start + size - rounds := by
  unfold indexAfter
  split
  · have hsum : start + (size - rounds) = start - rounds + size := by omega
    rw [hsum, Nat.add_mod_right, Nat.mod_eq_of_lt (by omega)]
  · rw [Nat.mod_eq_of_lt (by omega)]
    omega

theorem indexAfter_lt {size start rounds : ℕ} (hstart : start < size) :
    indexAfter size start rounds < size :=
  Nat.mod_lt _ (by omega)

theorem indexAfter_succ {size start rounds : ℕ} (hstart : start < size) (hlt : rounds < size) :
    indexAfter size start (rounds + 1) =
      if indexAfter size start rounds = 0 then size - 1 else indexAfter size start rounds - 1 := by
  rw [indexAfter_of_lt hstart (by omega), indexAfter_of_lt hstart (by omega)]
  split <;> split <;> split <;> omega

/-- The indices of the rounds so far, and the next one. -/
def Rounds (size i : ℕ) (visited : List ℕ) : Prop :=
  ∃ start < size, visited.length ≤ size ∧ i = indexAfter size start visited.length ∧
    visited = (List.range visited.length).map (indexAfter size start)

theorem rounds_nil {size start : ℕ} (hstart : start < size) : Rounds size start [] := by
  refine ⟨start, hstart, Nat.zero_le _, ?_, rfl⟩
  rw [List.length_nil, indexAfter_of_lt hstart (Nat.zero_le _)]
  simp

theorem Rounds.lt {size i : ℕ} {visited : List ℕ} (h : Rounds size i visited) : i < size := by
  obtain ⟨start, hstart, -, hi, -⟩ := h
  rw [hi]
  exact indexAfter_lt hstart

theorem Rounds.next {size i : ℕ} {visited : List ℕ} (h : Rounds size i visited)
    (hlt : visited.length < size) :
    Rounds size (if i = 0 then size - 1 else i - 1) (visited ++ [i]) := by
  obtain ⟨start, hstart, -, hi, hvisited⟩ := h
  refine ⟨start, hstart, ?_, ?_, ?_⟩
  · rw [List.length_append]
    exact hlt
  · rw [List.length_append, List.length_singleton, indexAfter_succ hstart hlt, ← hi]
  · rw [List.length_append, List.length_singleton, List.range_succ, List.map_append, ← hvisited,
      List.map_singleton, ← hi]

/-- After as many rounds as there are sockets, each index has had its round. -/
theorem Rounds.perm {size i : ℕ} {visited : List ℕ} (h : Rounds size i visited)
    (hend : visited.length = size) : visited.Perm (List.range size) := by
  obtain ⟨start, hstart, -, -, hvisited⟩ := h
  rw [hend] at hvisited
  have hnodup : visited.Nodup := by
    rw [hvisited]
    refine List.Nodup.map_on ?_ List.nodup_range
    intro a ha b hb hab
    rw [List.mem_range] at ha hb
    rw [indexAfter_of_lt hstart (by omega), indexAfter_of_lt hstart (by omega)] at hab
    split at hab <;> split at hab <;> omega
  have hsub : visited ⊆ List.range size := by
    intro x hx
    rw [hvisited, List.mem_map] at hx
    obtain ⟨round, -, rfl⟩ := hx
    exact List.mem_range.mpr (indexAfter_lt hstart)
  exact (List.subperm_of_subset hnodup hsub).perm_of_length_le (by simp [hend])

/-! ## The slots of the sockets that were polled -/

/-- The sockets that were polled are in their slots, or these are empty. -/
structure InPlace (pollFds : List ℕ) (slots : List (Option ℕ)) : Prop where
  length_le : pollFds.length ≤ slots.length
  slot : ∀ (i fd : ℕ), pollFds[i]? = some fd → slots[i]? = some none ∨ slots[i]? = some (some fd)

theorem InPlace.append {pollFds : List ℕ} {slots : List (Option ℕ)} (h : InPlace pollFds slots)
    (more : List (Option ℕ)) : InPlace pollFds (slots ++ more) where
  length_le := by
    rw [List.length_append]
    exact Nat.le_add_right_of_le h.length_le
  slot := by
    intro i fd hfd
    have hlt : i < slots.length :=
      Nat.lt_of_lt_of_le (List.getElem?_eq_some_iff.mp hfd).1 h.length_le
    rw [List.getElem?_append_left hlt]
    exact h.slot i fd hfd

theorem InPlace.set {pollFds : List ℕ} {slots : List (Option ℕ)} (h : InPlace pollFds slots)
    (i : ℕ) : InPlace pollFds (slots.set i none) where
  length_le := by
    rw [List.length_set]
    exact h.length_le
  slot := by
    intro j fd hfd
    have hlt : j < slots.length :=
      Nat.lt_of_lt_of_le (List.getElem?_eq_some_iff.mp hfd).1 h.length_le
    by_cases hij : i = j
    · subst hij
      exact .inl (List.getElem?_set_self hlt)
    · rw [List.getElem?_set_ne hij]
      exact h.slot j fd hfd

/-- All slots are filled, and `_pollFds` is set up from them. -/
theorem map_some_of_none_notMem {slots : List (Option ℕ)} (h : none ∉ slots) :
    slots = (slots.filterMap id).map some := by
  induction slots with
  | nil => rfl
  | cons slot slots ih =>
      cases slot with
      | none => exact (h List.mem_cons_self).elim
      | some socket =>
          have hrest := ih fun hmem => h (List.mem_cons_of_mem _ hmem)
          exact congrArg (some socket :: ·) hrest

theorem inPlace_map_some (pollFds : List ℕ) : InPlace pollFds (pollFds.map some) where
  length_le := by simp
  slot := by
    intro i fd hfd
    rw [List.getElem?_map, hfd]
    exact .inr rfl

/-- Only slots of sockets that were polled are empty. -/
def Inside (pollFds : List ℕ) (slots : List (Option ℕ)) : Prop :=
  ∀ i : ℕ, slots[i]? = some none → i < pollFds.length

theorem getElem?_of_set {slots : List (Option ℕ)} {i j : ℕ}
    (h : (slots.set i none)[j]? = some none) : j = i ∨ slots[j]? = some none := by
  by_cases hij : i = j
  · exact .inl hij.symm
  · rw [List.getElem?_set_ne hij] at h
    exact .inr h

theorem Inside.set {pollFds : List ℕ} {slots : List (Option ℕ)} {i : ℕ} (h : Inside pollFds slots)
    (hi : i < pollFds.length) : Inside pollFds (slots.set i none) := by
  intro j hj
  rcases getElem?_of_set hj with rfl | hj
  · exact hi
  · exact h j hj

/-- The empty slots whose round is over are counted. -/
def Counted (slots : List (Option ℕ)) (visited : List ℕ) (itemsErased : ℕ) : Prop :=
  ∀ i ∈ visited, slots[i]? = some none → 0 < itemsErased

namespace SocketPoll

variable {p p' : SocketPoll} {strict : Prop}

/-- Where the sockets are that are handled in a turn, and which of them have been; if `strict`, no
socket is moved out of any other slot. -/
def LoopKept (strict : Prop) (p : SocketPoll) : Prop :=
  match p.turn with
  | .idle => strict → none ∉ p.pollSockets
  | .polled fds _ _ => p.pollSockets = fds.map some
  | .drained fds => p.pollSockets = fds.map some
  | .invoking fds _ _ => InPlace fds p.pollSockets ∧ (strict → Inside fds p.pollSockets)
  | .handling _ fds i visited itemsErased => InPlace fds p.pollSockets ∧
      Rounds fds.length i visited ∧
      (strict → Inside fds p.pollSockets ∧ Counted p.pollSockets visited itemsErased)

/-- A socket that is moved away has been polled in this turn. -/
def movesPolled (p : SocketPoll) : Event → Bool
  | .transfer false =>
      match p.turn with
      | .invoking fds [] (pending :: _) =>
          (p.pollSockets.findIdx? (· == some pending.socket)).all fun i => decide (i < fds.length)
      | _ => true
  | _ => true

/-- The slots and the turn are not changed. -/
theorem LoopKept.of_eq (h : p.LoopKept strict) (hslots : p'.pollSockets = p.pollSockets)
    (hturn : p'.turn = p.turn) : p'.LoopKept strict := by
  unfold LoopKept at h ⊢
  rw [hslots, hturn]
  exact h

theorem LoopKept.startHandling {pollFds : List ℕ} (h : InPlace pollFds p.pollSockets)
    (hinside : strict → Inside pollFds p.pollSockets) (counts : Bool) :
    (p.startHandling counts pollFds).LoopKept strict := by
  unfold SocketPoll.startHandling
  split
  · rename_i hfds
    intro hstrict hmem
    obtain ⟨i, hi⟩ := List.mem_iff_getElem?.mp hmem
    have hlt := hinside hstrict i hi
    rw [hfds] at hlt
    cases hlt
  · rename_i hfds
    have hpos := List.length_pos_iff.mpr hfds
    refine ⟨h, rounds_nil ?_, ?_⟩
    · split <;> omega
    · intro hstrict
      refine ⟨hinside hstrict, ?_⟩
      intro i hi
      cases hi

/-- A transfer leaves at most one slot empty, which is that of a socket that was polled if it has
to be. -/
theorem LoopKept.transfer {fds : List ℕ} (h : InPlace fds p.pollSockets)
    (hinside : strict → Inside fds p.pollSockets) (pending : SocketTransfer) (expired : Bool)
    (hmoves : strict → expired = false →
      ((p.pollSockets.findIdx? (· == some pending.socket)).all fun i => decide (i < fds.length))) :
    InPlace fds (p.transfer pending expired).1.pollSockets ∧
      (strict → Inside fds (p.transfer pending expired).1.pollSockets) := by
  unfold SocketPoll.transfer
  split
  · exact ⟨h, hinside⟩
  · rename_i hexpired
    split
    · exact ⟨h, hinside⟩
    · rename_i i hfind
      refine ⟨h.set i, ?_⟩
      intro hstrict
      apply (hinside hstrict).set
      have hall := hmoves hstrict (by simpa using hexpired)
      rw [hfind] at hall
      exact of_decide_eq_true hall

/-- A round leaves the slot as it was, or empty and counted. -/
theorem visit_slots (i : ℕ) (sameFd isOpen : Bool) (disposition : Disposition) :
    ((p.visit i sameFd isOpen disposition).1.pollSockets = p.pollSockets ∧
        (p.pollSockets[i]? = some none → (p.visit i sameFd isOpen disposition).2.1 = 1)) ∨
      ((p.visit i sameFd isOpen disposition).1.pollSockets = p.pollSockets.set i none ∧
        (p.visit i sameFd isOpen disposition).2.1 = 1) := by
  unfold visit
  split
  · rename_i hslot
    exact .inl ⟨rfl, by simp [hslot]⟩
  · exact .inl ⟨rfl, fun _ => rfl⟩
  · rename_i socket hslot
    split
    · exact .inl ⟨rfl, by simp [hslot]⟩
    · split
      · exact .inl ⟨rfl, by simp [hslot]⟩
      · exact .inr ⟨rfl, rfl⟩

theorem LoopKept.visit {fds visited : List ℕ} {i itemsErased : ℕ} (h : InPlace fds p.pollSockets)
    (hrounds : Rounds fds.length i visited) (hstrict : strict →
      Inside fds p.pollSockets ∧ Counted p.pollSockets visited itemsErased)
    (sameFd isOpen : Bool) (disposition : Disposition) :
    InPlace fds (p.visit i sameFd isOpen disposition).1.pollSockets ∧
      (strict → Inside fds (p.visit i sameFd isOpen disposition).1.pollSockets ∧
        Counted (p.visit i sameFd isOpen disposition).1.pollSockets (visited ++ [i])
          (itemsErased + (p.visit i sameFd isOpen disposition).2.1)) := by
  rcases visit_slots (p := p) i sameFd isOpen disposition with ⟨hslots, hone⟩ | ⟨hslots, hone⟩
  · rw [hslots]
    refine ⟨h, fun hs => ⟨(hstrict hs).1, ?_⟩⟩
    intro j hj hempty
    rcases List.mem_append.mp hj with hold | hnew
    · have hpos := (hstrict hs).2 j hold hempty
      omega
    · rw [List.mem_singleton.mp hnew] at hempty
      rw [hone hempty]
      exact Nat.succ_pos itemsErased
  · rw [hslots, hone]
    refine ⟨h.set i, fun hs => ⟨(hstrict hs).1.set hrounds.lt, ?_⟩⟩
    intro j _ _
    exact Nat.succ_pos itemsErased

/-- When each slot has had its round, no empty one is left. -/
theorem none_notMem_eraseItems {fds visited : List ℕ} {i itemsErased : ℕ}
    (hrounds : Rounds fds.length i visited) (hend : visited.length = fds.length)
    (hinside : Inside fds p.pollSockets) (hcounted : Counted p.pollSockets visited itemsErased) :
    none ∉ (p.eraseItems itemsErased).pollSockets := by
  unfold eraseItems
  split
  · rename_i hzero
    intro hmem
    obtain ⟨j, hj⟩ := List.mem_iff_getElem?.mp hmem
    have hvisited : j ∈ visited :=
      (hrounds.perm hend).mem_iff.mpr (List.mem_range.mpr (hinside j hj))
    have hpos := hcounted j hvisited hj
    omega
  · intro hmem
    cases (List.mem_filter.mp hmem).2

@[simp] theorem transfer_turn (pending : SocketTransfer) (expired : Bool) :
    (p.transfer pending expired).1.turn = p.turn := by
  unfold transfer
  repeat' split
  all_goals rfl

theorem step_loopKept {e : Event} {effect : Effect} (h : p.LoopKept strict)
    (hmoves : strict → p.movesPolled e = true) (hstep : p.step e = some (p', effect)) :
    p'.LoopKept strict := by
  cases e with
  | insertNewSocket socket =>
      cases hstep
      exact h.of_eq (by simp [insertNewSocket]) (by simp [insertNewSocket])
  | addTask id =>
      cases hstep
      exact h.of_eq (by simp [addCallback]) (by simp [addCallback])
  | transferSocketTo transfer =>
      cases hstep
      exact h.of_eq (by simp [transferSocketTo]) (by simp [transferSocketTo])
  | wakeup =>
      cases hstep
      exact h.of_eq rfl rfl
  | stop =>
      cases hstep
      exact h.of_eq rfl rfl
  | removeSockets =>
      simp only [step] at hstep
      split at hstep
      · rename_i hturn
        cases hstep
        simp only [LoopKept, hturn]
        intro _ hmem
        cases hmem
      · cases hstep
  | ppoll fails =>
      simp only [step] at hstep
      split at hstep
      · obtain ⟨q, hq, heq⟩ := Option.map_eq_some_iff.mp hstep
        cases heq
        unfold ppoll at hq
        split at hq
        · cases hq
        · rename_i hfull
          cases hq
          exact map_some_of_none_notMem hfull
      · cases hstep
  | readPipe =>
      simp only [step] at hstep
      split at hstep
      · rename_i hturn
        cases hstep
        simp only [LoopKept, hturn] at h
        exact h
      · cases hstep
  | takeTasks =>
      simp only [step] at hstep
      split at hstep
      · rename_i fds hturn
        cases hstep
        simp only [LoopKept, hturn] at h
        simp only [LoopKept, takeTasks, h]
        refine ⟨(inPlace_map_some fds).append _, ?_⟩
        intro _ i hi
        rw [← List.map_append, List.getElem?_map] at hi
        obtain ⟨socket, -, hnone⟩ := Option.map_eq_some_iff.mp hi
        cases hnone
      · cases hstep
  | invoke =>
      simp only [step] at hstep
      split at hstep
      · rename_i hturn
        cases hstep
        simp only [LoopKept, hturn] at h
        exact h
      · cases hstep
  | transfer expired =>
      simp only [step] at hstep
      split at hstep
      · rename_i fds pending transfers hturn
        simp only [LoopKept, hturn] at h
        have htransfer := LoopKept.transfer
          (p := { p with turn := .invoking fds [] transfers }) h.1 h.2 pending expired (by
            intro hstrict hexpired
            have hpolled := hmoves hstrict
            rw [hexpired] at hpolled
            simpa only [movesPolled, hturn] using hpolled)
        have hturn' := transfer_turn
          (p := { p with turn := .invoking fds [] transfers }) pending expired
        rw [Option.some.injEq] at hstep
        rw [hstep] at htransfer hturn'
        unfold LoopKept
        rw [show p'.turn = .invoking fds [] transfers from hturn']
        exact htransfer
      · cases hstep
  | startHandling =>
      simp only [step] at hstep
      split at hstep
      · rename_i hturn
        cases hstep
        simp only [LoopKept, hturn] at h
        exact LoopKept.startHandling h.1 h.2 _
      · rename_i fds counts hturn
        cases hstep
        simp only [LoopKept, hturn] at h
        apply LoopKept.startHandling
        · rw [h]
          exact inPlace_map_some fds
        · intro _ i hi
          rw [h, List.getElem?_map] at hi
          obtain ⟨socket, -, hnone⟩ := Option.map_eq_some_iff.mp hi
          cases hnone
      · cases hstep
  | handlePoll sameFd isOpen disposition =>
      simp only [step] at hstep
      split at hstep
      · rename_i counts fds i visited itemsErased hturn
        simp only [LoopKept, hturn] at h
        split at hstep
        · rename_i hlt
          have hvisit := LoopKept.visit h.1 h.2.1 h.2.2 sameFd isOpen disposition
          cases hstep
          exact ⟨hvisit.1, h.2.1.next hlt, hvisit.2⟩
        · cases hstep
      · cases hstep
  | endTurn =>
      simp only [step] at hstep
      split at hstep
      · rename_i counts fds i visited itemsErased hturn
        simp only [LoopKept, hturn] at h
        split at hstep
        · rename_i hend
          cases hstep
          intro hstrict
          exact none_notMem_eraseItems h.2.1 hend (h.2.2 hstrict).1 (h.2.2 hstrict).2
        · cases hstep
      · cases hstep

end SocketPoll

namespace Polls

open SocketPoll

variable {strict : Prop}

/-- A socket that is moved away has been polled in the turn. -/
def movesPolled (s : Polls) (e : ℕ × Event) : Bool := (s.polls[e.1]?).all (·.movesPolled e.2)

theorem call_loopKept {s s' : Polls} {k : ℕ} {f : SocketPoll → SocketPoll}
    (hf : ∀ p : SocketPoll, (f p).pollSockets = p.pollSockets ∧ (f p).turn = p.turn)
    (h : ∀ p ∈ s.polls, p.LoopKept strict) (hcall : s.call k f = some s') :
    ∀ p ∈ s'.polls, p.LoopKept strict := by
  obtain ⟨p, hp, rfl⟩ := Option.map_eq_some_iff.mp hcall
  intro q hq
  rcases List.mem_or_eq_of_mem_set hq with hold | rfl
  · exact h q hold
  · exact (h p (List.mem_of_getElem? hp)).of_eq (hf p).1 (hf p).2

theorem step_loopKept {s s' : Polls} {e : ℕ × Event} (h : ∀ p ∈ s.polls, p.LoopKept strict)
    (hmoves : strict → s.movesPolled e = true) (hstep : s.step e = some s') :
    ∀ p ∈ s'.polls, p.LoopKept strict := by
  obtain ⟨p, hp, hrest⟩ := Option.bind_eq_some_iff.mp hstep
  obtain ⟨r, hr, happly⟩ := Option.bind_eq_some_iff.mp hrest
  have hpolls : ∀ q ∈ s.polls.set e.1 r.1, q.LoopKept strict := by
    intro q hq
    rcases List.mem_or_eq_of_mem_set hq with hold | rfl
    · exact h q hold
    · refine SocketPoll.step_loopKept (h p (List.mem_of_getElem? hp)) ?_ hr
      intro hstrict
      simpa [movesPolled, hp] using hmoves hstrict
  cases heffect : r.2 with
  | silent =>
      rw [heffect] at happly
      cases happly
      exact hpolls
  | gone sockets =>
      rw [heffect] at happly
      cases happly
      exact hpolls
  | move toPoll socket =>
      rw [heffect] at happly
      exact call_loopKept (fun p => by simp [addCallback]) hpolls happly
  | insert poll socket =>
      rw [heffect] at happly
      exact call_loopKept (fun p => by simp [insertNewSocket]) hpolls happly

theorem loopKept_new {n : ℕ} : ∀ p ∈ (new n).polls, p.LoopKept strict := by
  intro p hp
  rw [List.eq_of_mem_replicate hp]
  intro _ hmem
  cases hmem

/-- In every run, the loop over the sockets finds at each index the socket whose descriptor was
polled there, or an empty slot, and when it is over it has been at each index once. -/
theorem each_socket_handled_once {n : ℕ} {s : Polls} {es : List (ℕ × Event)}
    (hrun : run step (new n) es = some s) {p : SocketPoll} (hp : p ∈ s.polls) {counts : Bool}
    {fds visited : List ℕ} {i itemsErased : ℕ}
    (hturn : p.turn = .handling counts fds i visited itemsErased) :
    (p.pollSockets[i]? = some none ∨
        ∃ fd, fds[i]? = some fd ∧ p.pollSockets[i]? = some (some fd)) ∧
      (visited.length = fds.length → visited.Perm (List.range fds.length)) := by
  have h : ∀ p ∈ s.polls, p.LoopKept False := by
    apply run_invariant step (I := fun s : Polls => ∀ p ∈ s.polls, p.LoopKept False) _ hrun
      loopKept_new
    intro s e s' hstep h
    exact step_loopKept h False.elim hstep
  have hkept := h p hp
  simp only [LoopKept, hturn] at hkept
  refine ⟨?_, hkept.2.1.perm⟩
  have hfd := List.getElem?_eq_getElem hkept.2.1.lt
  rcases hkept.1.slot i _ hfd with hnone | hsome
  · exact .inl hnone
  · exact .inr ⟨_, hfd, hsome⟩

/-- Three sockets arrive, and are handled from the second one on. -/
def threeSockets : List (ℕ × Event) :=
  [(0, .insertNewSocket 4), (0, .insertNewSocket 5), (0, .insertNewSocket 6), (0, .ppoll false),
    (0, .readPipe), (0, .takeTasks), (0, .startHandling), (0, .ppoll false), (0, .startHandling),
    (0, .handlePoll true true .continue), (0, .handlePoll true true .closed),
    (0, .handlePoll true true .continue)]

theorem each_socket_handled_once_threeSockets :
    ∃ s, run step (new 1) threeSockets = some s ∧
      ∀ p ∈ s.polls, p.turn = .handling true [4, 5, 6] 1 [1, 0, 2] 1 ∧
        [1, 0, 2].Perm (List.range [4, 5, 6].length) := by
  obtain ⟨s, hs, hturn⟩ : ∃ s, run step (new 1) threeSockets = some s ∧
      ∀ p ∈ s.polls, p.turn = .handling true [4, 5, 6] 1 [1, 0, 2] 1 :=
    run_reaches _ _ _ (by decide)
  refine ⟨s, hs, ?_⟩
  intro p hp
  exact ⟨hturn p hp, (each_socket_handled_once hs hp (hturn p hp)).2 rfl⟩

/-- In every run in which no socket is moved out of a poll in the turn in which it arrived there,
no poll begins a turn with an empty slot. -/
theorem no_empty_slot {n : ℕ} {s : Polls} {es : List (ℕ × Event)}
    (hrun : run (stepIf step movesPolled) (new n) es = some s) {p : SocketPoll} (hp : p ∈ s.polls)
    (hturn : p.turn = .idle) : none ∉ p.pollSockets := by
  have h : ∀ p ∈ s.polls, p.LoopKept True := by
    apply run_invariant (stepIf step movesPolled)
      (I := fun s : Polls => ∀ p ∈ s.polls, p.LoopKept True) _ hrun loopKept_new
    intro s e s' hstep h
    obtain ⟨hmoves, hstep⟩ := (stepIf_eq_some step).mp hstep
    exact step_loopKept h (fun _ => hmoves) hstep
  have hkept := h p hp
  simp only [LoopKept, hturn] at hkept
  exact hkept trivial

theorem no_empty_slot_moved :
    ∃ s, run (stepIf step movesPolled) (new 2) (moved.dropLast.dropLast ++
        [(0, .handlePoll true true .continue), (0, .handlePoll true true .continue),
          (0, .endTurn)]) = some s ∧ ∀ p ∈ s.polls, p.turn = .idle → none ∉ p.pollSockets := by
  obtain ⟨s, hs, -⟩ : ∃ s, run (stepIf step movesPolled) (new 2) (moved.dropLast.dropLast ++
      [(0, .handlePoll true true .continue), (0, .handlePoll true true .continue),
        (0, .endTurn)]) = some s ∧ s.entered = [7, 8] := run_reaches _ _ _ (by decide)
  exact ⟨s, hs, fun p hp => no_empty_slot hs hp⟩

/-- A socket that is moved in the turn in which it arrives leaves an empty slot behind. -/
example : ((run step (new 2) [(0, .insertNewSocket 7), (0, .transferSocketTo ⟨7, 1, true⟩),
    (0, .ppoll false), (0, .readPipe), (0, .takeTasks), (0, .transfer false),
    (0, .startHandling)]).map fun s => s.polls.map fun p => (p.turn, p.pollSockets)) =
      some [(.idle, [none]), (.idle, [])] := by decide

end Polls

end CoolOnline.Polling
