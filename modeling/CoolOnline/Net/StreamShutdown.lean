import CoolOnline.Net.StreamSocket

/-! # The shutdown of a stream socket

A shutdown that is asked for waits until everything is written, as long as nothing breaks the
connection, and is done as soon as the kernel takes what there is.
-/

namespace CoolOnline.Streaming

namespace StreamSocket

variable {s s' : StreamSocket}

/-! ## Nothing is left -/

/-- Nothing breaks the connection in a poll: there is no timeout and no hangup, the peer does not
close it, and the handler does not shut it down itself. -/
def PollIsOrderly (e : PollEvent) : Prop :=
  e.timeout = none ∧ e.removal = false ∧ e.hangup = false ∧
    (∀ r ∈ e.reads, r ≠ .closed ∧ r ≠ .failed .pipe ∧ r ≠ .failed .reset) ∧
    (∀ w ∈ e.writes, w ≠ .failed .pipe ∧ w ≠ .failed .reset) ∧
    (∀ c ∈ e.messages, ∀ op ∈ c.ops, isGentle op = true) ∧
    (∀ perform ∈ e.performs, ∀ op ∈ perform, isGentle op = true) ∧
    ∀ op ∈ e.onDisconnect, isGentle op = true

/-- A socket that ignores its input is not polled for it, and the handler is only let go of when the
connection is shut down. -/
def IsOrderly (s : StreamSocket) : Event → Prop
  | .handlePoll e => PollIsOrderly e ∧ (e.pollIn = true → s.ignoringInput = false)
  | .use ops _ => ∀ op ∈ ops, isGentle op = true
  | .ensureDisconnected onDisconnect _ =>
      s.isShutdown = true ∧ ∀ op ∈ onDisconnect, isGentle op = true
  | .destroy onDisconnect _ => s.isShutdown = true ∧ ∀ op ∈ onDisconnect, isGentle op = true

instance decidablePollIsOrderly (e : PollEvent) : Decidable (PollIsOrderly e) :=
  inferInstanceAs (Decidable (_ ∧ _))

instance decidableIsOrderly (s : StreamSocket) : (e : Event) → Decidable (IsOrderly s e)
  | .handlePoll _ => inferInstanceAs (Decidable (_ ∧ _))
  | .use _ _ => inferInstanceAs (Decidable (∀ _ ∈ _, _))
  | .ensureDisconnected _ _ => inferInstanceAs (Decidable (_ ∧ _))
  | .destroy _ _ => inferInstanceAs (Decidable (_ ∧ _))

theorem composes_moves : Composes Moves where
  of_moves := id
  trans := .trans

theorem follows_moves {op : Op} (hop : isGentle op = true) : Follows Moves op :=
  fun _ _ h => applyOp_moves hop h

theorem readLoop_mem {rs : List ReadResult} {r : ReadResult × StreamSocket}
    (h : readLoop rs s = some r) : r.1 ∈ rs := by
  induction rs generalizing s with
  | nil => cases h
  | cons result rs ih =>
      cases result with
      | failed errno =>
          simp only [readLoop] at h
          split at h
          · exact List.mem_cons_of_mem _ (ih h)
          · cases h
            exact List.mem_cons_self
      | closed =>
          cases h
          exact List.mem_cons_self
      | bytes data =>
          simp only [readLoop, Option.ite_none_right_eq_some] at h
          obtain ⟨-, h⟩ := h
          split at h
          · exact List.mem_cons_of_mem _ (ih h)
          · cases h
            exact List.mem_cons_self

/-- The reads do not close the connection. -/
theorem readPhase_open {e : PollEvent} (hhangup : e.hangup = false)
    (hreads : ∀ r ∈ s.reads, r ≠ .closed ∧ r ≠ .failed .pipe ∧ r ≠ .failed .reset)
    (hignoring : e.pollIn = true → s.ignoringInput = false) {r : Bool × StreamSocket}
    (h : s.readPhase e = some r) : r.1 = false := by
  unfold readPhase at h
  split at h
  · rename_i hin
    obtain ⟨⟨result, t⟩, hread, rfl⟩ := Option.map_eq_some_iff.mp h
    simp only [readIncomingData, hignoring hin, Bool.false_eq_true, if_false] at hread
    obtain ⟨hclosed, hpipe, hreset⟩ := hreads result (readLoop_mem hread)
    cases result with
    | bytes data => rfl
    | closed => exact absurd rfl hclosed
    | failed errno =>
        have hne : errno ≠ .pipe ∧ errno ≠ .reset :=
          ⟨fun heq => hpipe (by rw [heq]), fun heq => hreset (by rw [heq])⟩
        simp [hhangup, hne.1, hne.2]
  · cases h
    exact hhangup

/-- Once the connection is shut down, what was not written stays what it is. -/
theorem ensureDisconnected_moves {onDisconnect : List Op}
    (hops : ∀ op ∈ onDisconnect, isGentle op = true) (hs : s.isShutdown = true)
    (h : s.ensureDisconnected onDisconnect = some s') : Moves s s' := by
  obtain ⟨t, ht, hcases⟩ :=
    ensureDisconnected_cases composes_moves (fun op hop => follows_moves (hops op hop)) h
  rcases hcases with rfl | ⟨hopen, -⟩
  · exact ht
  · rw [ht.isShutdown, hs] at hopen
    cases hopen

/-- The connection can be shut down, and all was written if it is. -/
def Flushed (s : StreamSocket) : Prop := s.noShutdown = false ∧ s.unsent = []

theorem Moves.flushed (h : Moves s s') (hs : s.Flushed) : s'.Flushed :=
  ⟨h.noShutdown.trans hs.1, h.unsent.trans hs.2⟩

theorem Flushed.shutdownConnection (hs : s.Flushed) (hempty : s.outBuffer = []) :
    s.shutdownConnection.Flushed ∧ s.shutdownConnection.isShutdown = true := by
  unfold StreamSocket.shutdownConnection
  split
  · rename_i hshut
    rcases hshut with hno | hshut
    · rw [hs.1] at hno
      cases hno
    · exact ⟨hs, hshut⟩
  · refine ⟨⟨hs.1, ?_⟩, rfl⟩
    simp only [setShutdown, hempty, hs.2, ite_self]

theorem handlePoll_flushed {e : PollEvent} (he : PollIsOrderly e)
    (hignoring : e.pollIn = true → s.ignoringInput = false) {r : Outcome × StreamSocket}
    (h : s.handlePoll e = some r) (hs : s.Flushed) : r.2.Flushed := by
  obtain ⟨htimeout, hremoval, hhangup, hreads, hwrites, hmessages, hperforms, hdisconnect⟩ := he
  unfold handlePoll at h
  simp only [htimeout, hremoval, Bool.false_eq_true, if_false] at h
  split at h
  · cases h
  · split at h
    · cases h
      exact hs
    · split at h
      · cases h
        exact hs
      · simp only [Option.bind_eq_bind, Option.bind_eq_some_iff] at h
        obtain ⟨⟨closed, a⟩, hread, ⟨outcome, b⟩, hmessage, h⟩ := h
        have hopen : closed = false :=
          readPhase_open (s := { s with reads := e.reads, writes := e.writes }) hhangup hreads
            hignoring hread
        have hmoved : Moves { s with reads := e.reads, writes := e.writes } b :=
          (readPhase_moves hread).trans (messageLoop_rel composes_moves
            (fun c hc op hop => follows_moves (hmessages c hc op hop)) hmessage)
        have hb : b.Flushed := hmoved.flushed hs
        split at h
        · cases h
          exact hb
        · obtain ⟨⟨closed', c⟩, hwrite, h⟩ := Option.bind_eq_some_iff.mp h
          obtain ⟨t, ht, hcases⟩ := writePhase_cases composes_moves
            (fun perform hperform op hop => follows_moves (hperforms perform hperform op hop)) hwrite
          have htFlushed := ht.flushed hb
          simp only at hcases
          rcases hcases with ⟨hclosed', rfl⟩ | ⟨-, -, u, errno, hu, herrno, hmem⟩ |
            ⟨hclosed', hempty, rfl⟩
          · simp only [hopen, hclosed', Bool.or_self, Bool.false_eq_true, if_false,
              Option.some.injEq] at h
            rw [← h]
            exact htFlushed
          · obtain ⟨hpipe, hreset⟩ := hwrites _ ((hmoved.trans hu).writes hmem)
            rcases herrno with rfl | rfl
            · exact absurd rfl hpipe
            · exact absurd rfl hreset
          · obtain ⟨hflushed, hshut⟩ := htFlushed.shutdownConnection hempty
            simp only [hclosed', Bool.or_true, if_true] at h
            obtain ⟨d, hd, rfl⟩ := Option.map_eq_some_iff.mp h
            have hend := ensureDisconnected_moves hdisconnect hshut hd
            obtain ⟨hno, hunsent⟩ := hend.flushed hflushed
            refine ⟨hno, ?_⟩
            simp only [setShutdown, hend.isShutdown.trans hshut, if_true, hunsent]

theorem step_flushed {e : Event} (he : IsOrderly s e) (h : s.step e = some s') (hs : s.Flushed) :
    s'.Flushed := by
  cases e with
  | handlePoll e =>
      obtain ⟨r, hr, rfl⟩ := Option.map_eq_some_iff.mp h
      exact handlePoll_flushed he.1 he.2 hr hs
  | use ops writes =>
      exact (run_rel composes_moves (fun op hop => follows_moves (he op hop)) h).flushed hs
  | ensureDisconnected onDisconnect writes =>
      exact (ensureDisconnected_moves (s := { s with writes := writes }) he.2 he.1 h).flushed hs
  | destroy onDisconnect writes =>
      obtain ⟨t, ht, rfl⟩ := Option.map_eq_some_iff.mp h
      have hend := ensureDisconnected_moves (s := { s with writes := writes }) he.2 he.1 ht
      have hflushed : t.Flushed := hend.flushed hs
      have hshut : t.isShutdown = true := hend.isShutdown.trans he.1
      dsimp only
      split
      · exact hflushed
      · simp only [asyncShutdown, shutdownConnection, hshut, or_true, if_true]
        exact hflushed

/-- A message that the kernel takes in three parts, of which the shutdown waits for the last. -/
def slowShutdown : List Event :=
  [.use [.send ['a', 'b', 'c', 'd'] 4 true, .asyncShutdown] [.took 1, .failed .again],
    .handlePoll ⟨none, false, false, true, false, [], [.took 2, .failed .again, .failed .again], [],
      [[], []], []⟩,
    .handlePoll ⟨none, false, false, true, false, [], [.took 2], [], [[], []],
      [.sendString ['b', 'y', 'e'] false]⟩]

/-- When the kernel takes something at every write, everything is written. -/
theorem writeLoop_all {ws : List WriteResult} (hws : ∀ w ∈ ws, ∃ len, w = .took (len + 1))
    (hsize : 0 < s.sendBufferSize) (hne : s.outBuffer ≠ [])
    (hlen : s.outBuffer.length ≤ ws.length) :
    ∃ len t, writeLoop ws s = some (.took len, t) ∧ t.outBuffer = [] ∧
      t.written = s.written ++ s.outBuffer ∧ t.shutdownSignalled = s.shutdownSignalled ∧
      t.sendBufferSize = s.sendBufferSize ∧ t.socketHandler = s.socketHandler ∧
      t.inBuffer = s.inBuffer ∧ t.doneDisconnect = s.doneDisconnect := by
  induction ws generalizing s with
  | nil => exact absurd (List.eq_nil_of_length_eq_zero (Nat.le_zero.mp hlen)) hne
  | cons w ws ih =>
      obtain ⟨⟨len, rfl⟩, hrest⟩ := List.forall_mem_cons.mp hws
      have hpos := List.length_pos_of_ne_nil hne
      have hmin : min s.outBuffer.length s.sendBufferSize ≠ 0 := by omega
      unfold writeLoop
      simp only [hmin, if_false]
      generalize htook : min (len + 1) (min s.outBuffer.length s.sendBufferSize) = took
      have htookPos : 0 < took := by omega
      split
      · rename_i hempty
        refine ⟨took, _, rfl, hempty, ?_, rfl, rfl, rfl, rfl, rfl⟩
        have hall : s.outBuffer.length ≤ took := by simpa [take] using hempty
        simp only [take, List.take_of_length_le hall]
      · rename_i hleft
        have hlength : (s.take took).outBuffer.length ≤ ws.length := by
          simp only [take, List.length_drop]
          simp only [List.length_cons] at hlen
          omega
        obtain ⟨len', t, hrun, hempty, hwritten, hframe⟩ :=
          ih (s := s.take took) hrest hsize hleft hlength
        refine ⟨len', t, hrun, hempty, ?_, hframe⟩
        rw [hwritten, take, List.append_assoc, List.take_append_drop]

theorem call_nil (h : s.socketHandler = true) : s.call [] = some s := by
  simp [call, h]

/-- The buffers of a connection that is shut down, and whether its handler was told. -/
theorem shutdownConnection_frame (s : StreamSocket) :
    s.shutdownConnection.written = s.written ∧ s.shutdownConnection.outBuffer = s.outBuffer ∧
      s.shutdownConnection.doneDisconnect = s.doneDisconnect := by
  unfold shutdownConnection
  split <;> exact ⟨rfl, rfl, rfl⟩

theorem ensureDisconnected_nil (s : StreamSocket) :
    ∃ t, s.ensureDisconnected [] = some t ∧ t.written = s.written ∧ t.outBuffer = s.outBuffer ∧
      t.doneDisconnect = true := by
  unfold ensureDisconnected
  split
  · rename_i hdone
    exact ⟨s, rfl, rfl, rfl, hdone⟩
  · dsimp only
    split
    · refine ⟨_, rfl, ?_⟩
      dsimp only
      split
      · exact ⟨rfl, rfl, rfl⟩
      · exact shutdownConnection_frame _
    · exact ⟨_, rfl, rfl, rfl, rfl⟩

/-- The loop writes everything; a signalled shutdown is done then. -/
theorem writePhase_all (performs : List (List Op))
    (hws : ∀ w ∈ s.writes, ∃ len, w = .took (len + 1)) (hsize : 0 < s.sendBufferSize)
    (hlen : s.outBuffer.length ≤ s.writes.length) (hhandler : s.socketHandler = true) :
    ∃ t, t.outBuffer = [] ∧ t.written = s.written ++ s.outBuffer ∧
      t.socketHandler = true ∧ t.shutdownSignalled = s.shutdownSignalled ∧ Moves s t ∧
      writePhase true ([] :: [] :: performs) s = some (s.shutdownSignalled,
        if s.shutdownSignalled then t.shutdownConnection else t) := by
  by_cases hempty : s.outBuffer = []
  · refine ⟨s, hempty, by simp [hempty], hhandler, rfl, .refl s, ?_⟩
    cases hsignal : s.shutdownSignalled <;>
      simp [writePhase, call_nil hhandler, hempty, hsignal]
  · obtain ⟨len, t, hwrite, htEmpty, htWritten, htSignal, htSize, htHandler, -, -⟩ :=
      writeLoop_all hws hsize hempty hlen
    have hmoves : Moves s t := writeLoop_moves (List.Subset.refl _) hwrite
    have hshorter : s.outBuffer.length ≠ t.outBuffer.length := by
      rw [htEmpty]
      exact (List.length_pos_of_ne_nil hempty).ne'
    refine ⟨t, htEmpty, htWritten, htHandler.trans hhandler, htSignal, hmoves, ?_⟩
    have hlast : writePhase true ([] :: performs) t = some (t.shutdownSignalled,
        if t.shutdownSignalled then t.shutdownConnection else t) := by
      cases hsignal : t.shutdownSignalled <;>
        simp [writePhase, call_nil (htHandler.trans hhandler), htEmpty, hsignal]
    rw [htSignal] at hlast
    unfold writePhase
    simp only [call_nil hhandler, ite_self, Option.bind_some, hempty, and_false, if_false, ne_eq,
      not_false_eq_true, and_self, if_true, writeOutgoingData, hwrite, reduceCtorEq, or_self,
      hshorter, hlast]

end StreamSocket

end CoolOnline.Streaming
