import CoolOnline.Net.SocketTasks

/-! # A socket is in one poll

However sockets are inserted, handled and moved from poll to poll: whatever has come from outside is
in a slot of one poll, in the new sockets of one, or with a callback that is about to insert it, or
no poll holds it any more.
-/

namespace CoolOnline.Polling

/-- The sockets that an effect takes out of a poll. -/
def Effect.out : Effect → List ℕ
  | .silent => []
  | .gone sockets => sockets
  | .move _ socket => [socket]
  | .insert _ socket => [socket]

@[simp] theorem Disposition.out_execute (disposition : Disposition) (socket : ℕ) :
    (disposition.execute socket).out = [socket] := by
  unfold Disposition.execute
  split <;> rfl

theorem Action.out_effect (fn : CallbackFn) : fn.action.effect.out = fn.socket?.toList := by
  unfold CallbackFn.socket? Action.effect
  cases fn.action <;> rfl

/-- Slots hold what is in them. -/
def inSlots (slots : List (Option ℕ)) : List ℕ := slots.flatMap Option.toList

theorem inSlots_eq_filterMap (slots : List (Option ℕ)) : inSlots slots = slots.filterMap id :=
  (List.filterMap_eq_flatMap_toList _ _).symm

theorem inSlots_map_some (sockets : List ℕ) : inSlots (sockets.map some) = sockets := by
  rw [inSlots_eq_filterMap, List.filterMap_map]
  simp

theorem inSlots_filter (slots : List (Option ℕ)) :
    inSlots (slots.filter Option.isSome) = inSlots slots := by
  induction slots with
  | nil => rfl
  | cons slot slots ih =>
      cases slot with
      | none => simpa [inSlots] using ih
      | some socket =>
          rw [List.filter_cons_of_pos rfl]
          simp only [inSlots, List.flatMap_cons] at ih ⊢
          rw [ih]

/-- A slot is left empty. -/
theorem count_inSlots_set {slots : List (Option ℕ)} {i socket : ℕ}
    (h : slots[i]? = some (some socket)) (x : ℕ) :
    (inSlots slots).count x = (inSlots (slots.set i none)).count x + [socket].count x := by
  have hset := count_flatMap_set Option.toList h none x
  simp only [Option.toList_none, Option.toList_some, List.count_nil, Nat.add_zero] at hset
  exact hset.symm

namespace SocketPoll

variable {p p' : SocketPoll}

/-- The sockets that a poll holds, or that a callback of it is about to insert. -/
def held (p : SocketPoll) : List ℕ :=
  inSlots p.pollSockets ++ (p.newSockets ++ p.pending.filterMap CallbackFn.socket?)

@[simp] theorem queued_pollSockets : (p.queued p').pollSockets = p'.pollSockets := by
  unfold queued
  split <;> rfl

@[simp] theorem queued_newSockets : (p.queued p').newSockets = p'.newSockets := by
  unfold queued
  split <;> rfl

theorem held_insertNewSocket (socket x : ℕ) :
    (p.insertNewSocket socket).held.count x = p.held.count x + [socket].count x := by
  simp only [held, pending, insertNewSocket, queued_pollSockets, queued_newSockets, queued_turn,
    queued_newCallbacks, List.count_append]
  omega

theorem held_addCallback (action : Action) (x : ℕ) :
    (p.addCallback action).held.count x = p.held.count x + action.effect.out.count x := by
  simp only [held, pending, addCallback, queued_pollSockets, queued_newSockets, queued_turn,
    queued_newCallbacks, List.filterMap_append, List.count_append]
  cases action with
  | task id =>
      simp only [Action.effect, Effect.out, List.count_nil, Nat.add_zero]
      rfl
  | arrive pollCopy socket =>
      simp [CallbackFn.socket?, Action.effect, Effect.out]
      omega

theorem held_transfer (pending : SocketTransfer) (expired : Bool) (x : ℕ) :
    p.held.count x = (p.transfer pending expired).1.held.count x +
      (p.transfer pending expired).2.out.count x := by
  unfold transfer
  split
  · simp [Effect.out]
  · split
    · simp [Effect.out]
    · rename_i i hfind
      have hslot : p.pollSockets[i]? = some (some pending.socket) := by
        obtain ⟨hlt, hsocket, -⟩ := List.findIdx?_eq_some_iff_getElem.mp hfind
        rw [List.getElem?_eq_getElem hlt, beq_iff_eq.mp hsocket]
      have hset := count_inSlots_set hslot x
      simp only [held, SocketPoll.pending, Disposition.out_execute, List.count_append] at hset ⊢
      omega

theorem held_visit (i : ℕ) (sameFd isOpen : Bool) (disposition : Disposition) (x : ℕ) :
    p.held.count x = (p.visit i sameFd isOpen disposition).1.held.count x +
      (p.visit i sameFd isOpen disposition).2.2.out.count x := by
  unfold visit
  split
  · simp [Effect.out]
  · simp [Effect.out]
  · rename_i socket hslot
    split
    · simp [Effect.out]
    · split
      · simp [Effect.out]
      · have hset := count_inSlots_set hslot x
        simp only [held, pending, Disposition.out_execute, List.count_append] at hset ⊢
        omega

theorem held_eraseItems (itemsErased : ℕ) : (p.eraseItems itemsErased).held = p.held := by
  unfold eraseItems
  split
  · rfl
  · simp only [held, pending, inSlots_filter]

/-- A turn that begins or ends leaves the sockets where they are, if no callback is left. -/
theorem held_endTurn (counts : Bool) (hinvoke : p.turn.invoke = []) :
    (p.endTurn counts).held = p.held := by
  simp only [held, pending, hinvoke]
  rfl

theorem held_startHandling (counts : Bool) (pollFds : List ℕ) (hinvoke : p.turn.invoke = []) :
    (p.startHandling counts pollFds).held = p.held := by
  unfold startHandling
  split
  · exact held_endTurn counts hinvoke
  · simp only [held, pending, hinvoke]
    rfl

/-- Every step of a poll: what it holds and what comes in is what it holds then and what goes. -/
theorem step_held {e : Event} {effect : Effect} (hstep : p.step e = some (p', effect)) (x : ℕ) :
    p.held.count x + (Polls.comes e).count x = p'.held.count x + effect.out.count x := by
  cases e with
  | insertNewSocket socket =>
      cases hstep
      simp [held_insertNewSocket, Polls.comes, Effect.out]
  | addTask id =>
      cases hstep
      simp [held_addCallback, Polls.comes, Effect.out, Action.effect]
  | transferSocketTo transfer =>
      cases hstep
      simp [held, pending, transferSocketTo, Polls.comes, Effect.out]
  | wakeup =>
      cases hstep
      simp [held, pending, Polls.comes, Effect.out]
      rfl
  | stop =>
      cases hstep
      simp only [held, pending, stop, wakeup_turn, wakeup_newCallbacks, Polls.comes, Effect.out,
        List.filterMap_append, List.count_append, List.count_nil, List.append_nil]
      simp only [wakeup]
      omega
  | removeSockets =>
      simp only [step] at hstep
      split at hstep
      · cases hstep
        simp only [held, pending, Polls.comes, Effect.out, ← inSlots_eq_filterMap,
          List.count_append, List.count_nil, inSlots, List.flatMap_nil]
        omega
      · cases hstep
  | ppoll fails =>
      simp only [step] at hstep
      split at hstep
      · rename_i hturn
        obtain ⟨q, hq, heq⟩ := Option.map_eq_some_iff.mp hstep
        cases heq
        unfold ppoll at hq
        split at hq
        · cases hq
        · cases hq
          simp [held, pending, hturn, Turn.invoke, Polls.comes, Effect.out]
      · cases hstep
  | readPipe =>
      simp only [step] at hstep
      split at hstep
      · rename_i hturn
        cases hstep
        simp [held, pending, hturn, Turn.invoke, Polls.comes, Effect.out]
      · cases hstep
  | takeTasks =>
      simp only [step] at hstep
      split at hstep
      · rename_i hturn
        cases hstep
        have hmap : inSlots (p.pollSockets ++ p.newSockets.map some) =
            inSlots p.pollSockets ++ p.newSockets := by
          rw [inSlots, List.flatMap_append]
          exact congrArg _ (inSlots_map_some p.newSockets)
        simp [held, pending, takeTasks, hmap, hturn, Turn.invoke, Polls.comes, Effect.out]
      · cases hstep
  | invoke =>
      simp only [step] at hstep
      split at hstep
      · rename_i fds fn fns transfers hturn
        cases hstep
        have hout := Action.out_effect fn
        cases hsocket : fn.socket? with
        | none =>
            simp [held, pending, hturn, Turn.invoke, Polls.comes, hout, hsocket]
        | some socket =>
            simp [held, pending, hturn, Turn.invoke, Polls.comes, hout, hsocket, List.count_cons]
            omega
      · cases hstep
  | transfer expired =>
      simp only [step] at hstep
      split at hstep
      · rename_i fds pending transfers hturn
        have htransfer :=
          held_transfer (p := { p with turn := .invoking fds [] transfers }) pending expired x
        have hbefore : SocketPoll.held { p with turn := .invoking fds [] transfers } = p.held := by
          simp [held, SocketPoll.pending, hturn, Turn.invoke]
        rw [Option.some.injEq] at hstep
        rw [hstep, hbefore] at htransfer
        simpa [Polls.comes] using htransfer
      · cases hstep
  | startHandling =>
      simp only [step] at hstep
      split at hstep
      · rename_i hturn
        cases hstep
        rw [held_startHandling _ _ (by rw [hturn]; rfl)]
        rfl
      · rename_i hturn
        cases hstep
        rw [held_startHandling _ _ (by rw [hturn]; rfl)]
        rfl
      · cases hstep
  | handlePoll sameFd isOpen disposition =>
      simp only [step] at hstep
      split at hstep
      · rename_i counts fds i visited itemsErased hturn
        split at hstep
        · have hvisit := held_visit (p := p) i sameFd isOpen disposition x
          have hvisitTurn := (visit_turn (p := p) i sameFd isOpen disposition).trans hturn
          cases hstep
          simpa [held, pending, hvisitTurn, hturn, Turn.invoke, Polls.comes] using hvisit
        · cases hstep
      · cases hstep
  | endTurn =>
      simp only [step] at hstep
      split at hstep
      · rename_i counts fds i visited itemsErased hturn
        split at hstep
        · cases hstep
          have hturn' := (eraseItems_turn (p := p) itemsErased).trans hturn
          rw [held_endTurn _ (by rw [hturn']; rfl), held_eraseItems]
          rfl
        · cases hstep
      · cases hstep

end SocketPoll

namespace Polls

open SocketPoll

/-- What has come from outside is in one of the polls or has left. -/
def SocketsKept (s : Polls) : Prop := Conserved held s.entered s.polls s.left

/-- What an effect takes out of one poll is put where it says. -/
theorem apply_socketsKept {s s' : Polls} {effect : Effect}
    (h : Conserved held s.entered s.polls (s.left ++ effect.out))
    (happly : s.apply effect = some s') : s'.SocketsKept := by
  cases effect with
  | silent =>
      cases happly
      simpa [SocketsKept, Effect.out] using h
  | gone sockets =>
      cases happly
      exact h
  | move toPoll socket =>
      obtain ⟨p, hp, rfl⟩ := Option.map_eq_some_iff.mp happly
      exact h.put hp (held_addCallback _)
  | insert poll socket =>
      obtain ⟨p, hp, rfl⟩ := Option.map_eq_some_iff.mp happly
      exact h.put hp (held_insertNewSocket _)

theorem step_socketsKept {s s' : Polls} {e : ℕ × Event} (h : s.SocketsKept)
    (hstep : s.step e = some s') : s'.SocketsKept := by
  obtain ⟨p, hp, hrest⟩ := Option.bind_eq_some_iff.mp hstep
  obtain ⟨r, hr, happly⟩ := Option.bind_eq_some_iff.mp hrest
  exact apply_socketsKept (Conserved.set h hp (step_held hr)) happly

/-- In every run of any number of polls, the sockets that came from outside are those in the polls
and those that no poll holds any more, each as often as it came; so a socket that was inserted once
is in one poll at most, and there in one place. -/
theorem sockets_conserved {n : ℕ} {s : Polls} {es : List (ℕ × Event)}
    (hrun : run step (new n) es = some s) :
    s.entered.Perm (s.polls.flatMap held ++ s.left) ∧
      (s.entered.Nodup → (s.polls.flatMap held ++ s.left).Nodup) := by
  have h : s.SocketsKept := by
    apply run_invariant step (fun s e s' hstep h => step_socketsKept h hstep) hrun
    intro x
    have hnone : (List.replicate n SocketPoll.new).flatMap held = [] := by
      simp [List.flatMap_eq_nil_iff, held, pending, inSlots, SocketPoll.new, Turn.invoke]
    simp [new, hnone]
  exact ⟨h.perm, h.perm.nodup_iff.mp⟩

/-- A socket goes from one poll to another, and its peer is closed. -/
def moved : List (ℕ × Event) :=
  [(0, .insertNewSocket 7), (0, .insertNewSocket 8), (0, .ppoll false), (0, .readPipe),
    (0, .takeTasks), (0, .startHandling), (0, .transferSocketTo ⟨7, 1, true⟩), (0, .ppoll false),
    (0, .readPipe), (0, .takeTasks), (0, .transfer false), (0, .startHandling),
    (1, .ppoll false), (1, .readPipe), (1, .takeTasks), (0, .handlePoll true false .continue),
    (1, .invoke)]

theorem sockets_conserved_moved :
    ∃ s, run step (new 2) moved = some s ∧ s.polls.map held = [[], [7]] ∧
      s.entered.Perm (s.polls.flatMap held ++ s.left) := by
  obtain ⟨s, hs, hheld⟩ : ∃ s, run step (new 2) moved = some s ∧ s.polls.map held = [[], [7]] :=
    run_reaches _ _ _ (by decide)
  exact ⟨s, hs, hheld, (sockets_conserved hs).1⟩

end Polls

end CoolOnline.Polling
