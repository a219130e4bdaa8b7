import CoolOnline.Browser.ProxySocket
import CoolOnline.Library.History
import CoolOnline.Library.ListWrite

/-! # A proxied connection

The two ends, and the requests and responses between them: a request comes in piece by piece, and is
answered when all of it has come; a response comes as a whole. Which of them come first is open.
-/

namespace CoolOnline.Proxy

open Reordering ListWrite

/-- A request on its way: what has come and is not handled, and what is still to come. -/
structure ProxyRequest where
  inBuffer : Payload
  coming : Payload

structure Connection where
  socket : ProxySocket
  handler : ProxyProtocolHandler
  requests : List ProxyRequest
  /-- The bodies of the responses on their way, in the order in which they were sent. -/
  responses : List Payload
  /-- What has been sent by the browser, and by the server. -/
  sent : List Payload
  written : List Message

def Connection.start : Connection := ⟨.start, .start, [], [], [], []⟩

inductive Event
  | opened
  | send (msg : Payload)
  | doSend
  /-- This much of a request comes; if it is complete, the message handler writes these messages
  before the answer is sent. -/
  | arrive (i n : Nat) (queued : List Message)
  | sendMessage (m : Message)
  | load (i : Nat)

namespace Connection

/-- A part of a request has come. -/
def arrive (w : Connection) (i n : Nat) (queued : List Message) (r : ProxyRequest) : Connection :=
  let buffer := r.inBuffer ++ r.coming.take n
  match parseEmitIncoming (buffer.length + 1) w.handler buffer with
  | (.complete, handler, _) =>
      let answer := handler.flushQueueTo queued
      { w with
        handler := answer.1
        requests := w.requests.eraseIdx i
        responses := w.responses ++ [answer.2]
        written := w.written ++ queued }
  | (.again, handler, inBuffer) =>
      { w with
        handler := handler
        requests := w.requests.set i ⟨inBuffer, r.coming.drop n⟩ }
  | (.protocolError, handler, _) =>
      { w with handler := handler, requests := w.requests.eraseIdx i }

/-- A message that is sent is not longer than any string can be. -/
def step (w : Connection) : Event → Option Connection
  | .opened => some { w with socket := { w.socket with opened := true } }
  | .send msg =>
      if msg.length < 2 ^ 64 then some { w with socket := w.socket.send msg, sent := w.sent ++ [msg] }
      else none
  | .doSend =>
      some { w with
        socket := w.socket.doSend.1
        requests := w.requests ++ w.socket.doSend.2.toList.map fun body => ⟨[], body⟩ }
  | .arrive i n queued => (w.requests[i]?).map (w.arrive i n queued)
  | .sendMessage m =>
      some { w with handler := w.handler.sendMessage m, written := w.written ++ [m] }
  | .load i =>
      (w.responses[i]?).bind fun body =>
        (w.socket.load body).map fun socket =>
          { w with socket := socket, responses := w.responses.eraseIdx i }

/-- What has been handed on at both ends is the start of what was sent, and all of it when nothing
is on its way. -/
structure InSequence (w : Connection) : Prop where
  handled : w.handler.handled <+: w.sent
  received : w.socket.received <+: w.written
  allHandled : w.requests = [] → w.socket.sendQueue = [] → w.handler.handled = w.sent
  allReceived : (∀ body ∈ w.responses, body = []) → w.handler.writeQueue = [] →
    w.socket.received = w.written

/-- No response with messages comes before one that was sent earlier. -/
def inTurn (w : Connection) : Event → Bool
  | .load i => w.responses[i]? == some [] || (w.responses.take i).all fun body => body == []
  | _ => true

end Connection

/-! ## From the browser to the server -/

section

variable {w w' : Connection} {h : ProxyProtocolHandler} {sent : List Payload}

/-- The messages that are carried: by each request, and by the next one. -/
structure Carries (w : Connection) (carried : List (List (Nat × Payload)))
    (queued : List (Nat × Payload)) : Prop where
  requests : List.Forall₂ (fun r items => r.inBuffer ++ r.coming = framesText items ++ ['.'])
    w.requests carried
  sendQueue : w.socket.sendQueue = framesText queued
  hasNumber : ∀ item ∈ carried.flatten ++ queued, HasNumber 1 w.sent item.1 item.2
  short : ∀ item ∈ carried.flatten ++ queued, item.2.length < 2 ^ 64
  outSerial : w.socket.outSerial = 1 + w.sent.length

/-- The handler with what was sent and the serials that are still to come. -/
structure Handles (h : ProxyProtocolHandler) (sent : List Payload) (coming : List Nat) : Prop where
  inOrder : InOrder 1 sent h.handled h.inSerial h.serialQueue
  covers : Covers 1 sent h.inSerial h.serialQueue coming
  waiting : h.serialQueue.get h.inSerial = none

variable {coming coming' : List Nat} {serial : Nat} {data : Payload}

theorem Handles.receive (hh : Handles h sent coming) (hdata : HasNumber 1 sent serial data)
    (hcoming : ∀ k ∈ coming, k = serial ∨ k ∈ coming') :
    Handles (h.receive serial data) sent coming' where
  inOrder := (hh.inOrder.keep hdata).drain _
  covers := (hh.covers.keep data hcoming).drain _
  waiting := drain_get_eq_none (Nat.le_refl _)

/-- The messages of a request have come. -/
theorem Handles.receiveAll {items : List (Nat × Payload)}
    (hh : Handles h sent (items.map Prod.fst ++ coming))
    (hitems : ∀ item ∈ items, HasNumber 1 sent item.1 item.2) :
    Handles (h.receiveAll items) sent coming := by
  induction items generalizing h with
  | nil => exact hh
  | cons item items ih =>
      refine ih (hh.receive (hitems item List.mem_cons_self) fun k hk => ?_)
        fun i hi => hitems i (List.mem_cons_of_mem item hi)
      simpa using hk

/-- The handler has all that has come, and what is missing is carried. -/
def RequestsOk (w : Connection) : Prop :=
  ∃ carried queued, Carries w carried queued ∧
    Handles w.handler w.sent ((carried.flatten ++ queued).map Prod.fst)

theorem flushQueueTo_keeps (h : ProxyProtocolHandler) (queued : List Message) :
    (h.flushQueueTo queued).1.handled = h.handled ∧
      (h.flushQueueTo queued).1.inSerial = h.inSerial ∧
      (h.flushQueueTo queued).1.serialQueue = h.serialQueue := by
  have hfold : ∀ (h : ProxyProtocolHandler),
      (queued.foldl ProxyProtocolHandler.sendMessage h).handled = h.handled ∧
        (queued.foldl ProxyProtocolHandler.sendMessage h).inSerial = h.inSerial ∧
        (queued.foldl ProxyProtocolHandler.sendMessage h).serialQueue = h.serialQueue := by
    induction queued with
    | nil => exact fun _ => ⟨rfl, rfl, rfl⟩
    | cons m queued ih => exact fun h => ih (h.sendMessage m)
  exact hfold h

theorem Handles.of_eq {h' : ProxyProtocolHandler} (hh : Handles h sent coming)
    (heq : h'.handled = h.handled ∧ h'.inSerial = h.inSerial ∧ h'.serialQueue = h.serialQueue) :
    Handles h' sent coming := by
  obtain ⟨hhandled, hserial, hqueue⟩ := heq
  constructor
  · rw [hhandled, hserial, hqueue]
    exact hh.inOrder
  · rw [hserial, hqueue]
    exact hh.covers
  · rw [hserial, hqueue]
    exact hh.waiting

theorem requestsOk_start : RequestsOk .start := by
  refine ⟨[], [], ⟨.nil, rfl, nofun, nofun, rfl⟩, inOrder_start 1 [], ?_, rfl⟩
  intro k hle hlt
  exact absurd hlt (Nat.not_lt.mpr hle)

theorem requestsOk_send {msg : Payload} (hmsg : msg.length < 2 ^ 64) (hw : RequestsOk w) :
    RequestsOk { w with socket := w.socket.send msg, sent := w.sent ++ [msg] } := by
  obtain ⟨carried, queued, hcarries, hhandles⟩ := hw
  have hserial := hcarries.outSerial
  refine ⟨carried, queued ++ [(w.socket.outSerial, msg)], ⟨hcarries.requests, ?_, ?_, ?_, ?_⟩,
    hhandles.inOrder.send msg, ?_, hhandles.waiting⟩
  · show w.socket.sendQueue ++ _ = _
    rw [hcarries.sendQueue, framesText, framesText, List.flatMap_append, List.flatMap_singleton]
  · intro item hitem
    rw [← List.append_assoc, List.mem_append, List.mem_singleton] at hitem
    rcases hitem with hitem | rfl
    · obtain ⟨hbase, hsome⟩ := hcarries.hasNumber item hitem
      have hlt := (List.getElem?_eq_some_iff.mp hsome).1
      exact ⟨hbase, by rw [List.getElem?_append_left hlt, hsome]⟩
    · rw [hserial]
      refine ⟨Nat.le_add_right 1 _, ?_⟩
      simp
  · intro item hitem
    rw [← List.append_assoc, List.mem_append, List.mem_singleton] at hitem
    rcases hitem with hitem | rfl
    · exact hcarries.short item hitem
    · exact hmsg
  · show w.socket.outSerial + 1 = _
    rw [hserial, List.length_append, List.length_singleton, Nat.add_assoc]
  · apply hhandles.covers.send msg
    · intro k hk
      rw [← List.append_assoc, List.map_append]
      exact List.mem_append_left _ hk
    · rw [← List.append_assoc, List.map_append, hserial]
      exact List.mem_append_right _ List.mem_cons_self

theorem requestsOk_doSend (hw : RequestsOk w) :
    RequestsOk { w with
      socket := w.socket.doSend.1
      requests := w.requests ++ w.socket.doSend.2.toList.map fun body => ⟨[], body⟩ } := by
  obtain ⟨carried, queued, hcarries, hhandles⟩ := hw
  by_cases hsends : w.socket.opened = true ∧ ¬ 4 ≤ w.socket.msgInflight
  · have hdo : w.socket.doSend =
        ({ w.socket with sendQueue := [], msgInflight := w.socket.msgInflight + 1 },
          some (w.socket.sendQueue ++ ['.'])) := by
      have hopened : ¬ (!w.socket.opened) = true := by simp [hsends.1]
      rw [ProxySocket.doSend, if_neg hopened, if_neg hsends.2]
    rw [hdo]
    have hcarried : (carried ++ [queued]).flatten ++ [] = carried.flatten ++ queued := by simp
    refine ⟨carried ++ [queued], [], ⟨?_, rfl, ?_, ?_, hcarries.outSerial⟩, ?_⟩
    · apply List.rel_append hcarries.requests
      exact .cons (by rw [hcarries.sendQueue]; rfl) .nil
    · rw [hcarried]
      exact hcarries.hasNumber
    · rw [hcarried]
      exact hcarries.short
    · rw [hcarried]
      exact hhandles
  · have hdo : w.socket.doSend = (w.socket, none) := by
      rw [ProxySocket.doSend]
      split_ifs with hopened hmany
      · rfl
      · rfl
      · exact absurd ⟨by simpa using hopened, hmany⟩ hsends
    rw [hdo]
    refine ⟨carried, queued, ⟨?_, hcarries.sendQueue, hcarries.hasNumber, hcarries.short,
      hcarries.outSerial⟩, hhandles⟩
    simpa using hcarries.requests

/-- Some of the messages of a request have come. -/
theorem Carries.arrived {carried : List (List (Nat × Payload))}
    {queued done left : List (Nat × Payload)} {i : Nat} (hcarries : Carries w carried queued)
    (hitems : carried[i]? = some (done ++ left))
    (hh : Handles w.handler w.sent ((carried.flatten ++ queued).map Prod.fst)) :
    (∀ item ∈ (carried.set i left).flatten ++ queued, item ∈ carried.flatten ++ queued) ∧
      Handles (w.handler.receiveAll done) w.sent
        (((carried.set i left).flatten ++ queued).map Prod.fst) := by
  have hmem : ∀ item, item ∈ carried.flatten ++ queued ↔
      item ∈ done ∨ item ∈ (carried.set i left).flatten ++ queued := by
    intro item
    rw [List.mem_append, List.mem_append, mem_flatten_set hitems, or_assoc]
  refine ⟨fun item hitem => (hmem item).mpr (.inr hitem), ?_⟩
  apply Handles.receiveAll
  · refine ⟨hh.inOrder, hh.covers.mono fun k hk => ?_, hh.waiting⟩
    obtain ⟨item, hitem, rfl⟩ := List.mem_map.mp hk
    rw [List.mem_append]
    exact ((hmem item).mp hitem).imp (List.mem_map_of_mem (f := Prod.fst))
      (List.mem_map_of_mem (f := Prod.fst))
  · exact fun item hitem => hcarries.hasNumber item ((hmem item).mpr (.inl hitem))

theorem requestsOk_arrive {i n : Nat} {queued : List Message} {r : ProxyRequest}
    (hget : w.requests[i]? = some r) (hw : RequestsOk w) : RequestsOk (w.arrive i n queued r) := by
  obtain ⟨carried, waiting, hcarries, hhandles⟩ := hw
  obtain ⟨items, hitems, hbody⟩ := forall₂_getElem? hcarries.requests hget
  have hshort : ∀ item ∈ items, item.2.length < 2 ^ 64 := fun item hitem =>
    hcarries.short item
      (List.mem_append_left _ (List.mem_flatten_of_mem (List.mem_of_getElem? hitems) hitem))
  have hstart : r.inBuffer ++ r.coming.take n <+: framesText items ++ ['.'] := by
    rw [← hbody, List.prefix_append_right_inj]
    exact List.take_prefix n r.coming
  have hparse := parseEmitIncoming_prefix hshort hstart (Nat.lt_succ_self _) w.handler
  obtain ⟨done, left, q, rfl, hread, hstatus⟩ := hparse
  obtain ⟨hstill, hhandler⟩ := hcarries.arrived hitems hhandles
  have hnumber := fun item hitem => hcarries.hasNumber item (hstill item hitem)
  have hsize := fun item hitem => hcarries.short item (hstill item hitem)
  rw [Connection.arrive, hstatus]
  by_cases hend : left = [] ∧ q = ['.']
  · obtain ⟨rfl, rfl⟩ := hend
    rw [if_pos ⟨rfl, rfl⟩]
    rw [← flatten_eraseIdx] at hhandler hnumber hsize
    exact ⟨carried.eraseIdx i, waiting, ⟨forall₂_eraseIdx hcarries.requests i, hcarries.sendQueue,
      hnumber, hsize, hcarries.outSerial⟩, hhandler.of_eq (flushQueueTo_keeps _ _)⟩
  · rw [if_neg hend]
    refine ⟨carried.set i left, waiting, ⟨?_, hcarries.sendQueue, hnumber, hsize,
      hcarries.outSerial⟩, hhandler⟩
    apply forall₂_set hcarries.requests
    -- What is left of the messages are what is kept in the buffer and what is still to come.
    have hall : framesText done ++ (q ++ r.coming.drop n) =
        framesText done ++ (framesText left ++ ['.']) := by
      rw [← List.append_assoc, ← hread, List.append_assoc, List.take_append_drop, hbody, framesText,
        List.flatMap_append, List.append_assoc]
      rfl
    exact List.append_cancel_left hall

theorem requestsOk_load {i : Nat} {body : Payload} {socket : ProxySocket}
    (hload : w.socket.load body = some socket) (hw : RequestsOk w) :
    RequestsOk { w with socket := socket, responses := w.responses.eraseIdx i } := by
  obtain ⟨carried, queued, hcarries, hhandles⟩ := hw
  have hkeeps := load_keeps hload
  exact ⟨carried, queued, ⟨hcarries.requests, hkeeps.1.trans hcarries.sendQueue, hcarries.hasNumber,
    hcarries.short, hkeeps.2.trans hcarries.outSerial⟩, hhandles⟩

theorem RequestsOk.step {e : Event} (hstep : w.step e = some w') (hw : RequestsOk w) :
    RequestsOk w' := by
  cases e with
  | opened =>
      cases hstep
      obtain ⟨carried, queued, hcarries, hhandles⟩ := hw
      exact ⟨carried, queued, ⟨hcarries.requests, hcarries.sendQueue, hcarries.hasNumber,
        hcarries.short, hcarries.outSerial⟩, hhandles⟩
  | send msg =>
      rw [Connection.step] at hstep
      split_ifs at hstep with hmsg
      cases hstep
      exact requestsOk_send hmsg hw
  | doSend =>
      cases hstep
      exact requestsOk_doSend hw
  | arrive i n queued =>
      obtain ⟨r, hget, rfl⟩ := Option.map_eq_some_iff.mp hstep
      exact requestsOk_arrive hget hw
  | sendMessage m =>
      cases hstep
      obtain ⟨carried, queued, hcarries, hhandles⟩ := hw
      exact ⟨carried, queued, ⟨hcarries.requests, hcarries.sendQueue, hcarries.hasNumber,
        hcarries.short, hcarries.outSerial⟩, hhandles.of_eq ⟨rfl, rfl, rfl⟩⟩
  | load i =>
      obtain ⟨body, -, hload⟩ := Option.bind_eq_some_iff.mp hstep
      obtain ⟨socket, hsocket, rfl⟩ := Option.map_eq_some_iff.mp hload
      exact requestsOk_load hsocket hw

theorem RequestsOk.handled (hw : RequestsOk w) :
    w.handler.handled <+: w.sent ∧
      (w.requests = [] → w.socket.sendQueue = [] → w.handler.handled = w.sent) := by
  obtain ⟨carried, queued, hcarries, hhandles⟩ := hw
  refine ⟨hhandles.inOrder.isPrefix, fun hnone hempty => ?_⟩
  have hcarried : carried = [] := by
    have hpairs := hcarries.requests
    rw [hnone] at hpairs
    cases hpairs
    rfl
  have hqueued : queued = [] := by
    have hframes := hcarries.sendQueue.symm.trans hempty
    cases queued with
    | nil => rfl
    | cons item queued => cases hframes
  subst hcarried hqueued
  exact hhandles.inOrder.eq_of_covers hhandles.covers hhandles.waiting

end

/-! ## From the server to the browser -/

section

variable {w w' : Connection} {h : ProxyProtocolHandler} {buffer : Payload} {k turns : Nat}
  {ms queued : List Message}

theorem parseEmitIncoming_keeps :
    (parseEmitIncoming turns h buffer).2.1.writeQueue = h.writeQueue ∧
      (parseEmitIncoming turns h buffer).2.1.outSerial = h.outSerial := by
  induction turns generalizing h buffer with
  | zero => exact ⟨rfl, rfl⟩
  | succ turns ih =>
      rw [parseEmitIncoming]
      split_ifs
      · exact ⟨rfl, rfl⟩
      · exact ⟨rfl, rfl⟩
      · exact ⟨rfl, rfl⟩
      · exact ⟨rfl, rfl⟩
      · split
        · exact ⟨rfl, rfl⟩
        · rename_i serialStr lengthStr content hcut
          simp only
          split
          · exact @ih (h.receive _ _) _
          · exact ⟨rfl, rfl⟩

/-- These messages wait to be written. -/
def Waits (h : ProxyProtocolHandler) (k : Nat) (ms : List Message) : Prop :=
  h.writeQueue.flatten = bytesFrom k ms ∧ h.outSerial = k + ms.length

theorem Waits.sendMessage (hh : Waits h k ms) (m : Message) :
    Waits (h.sendMessage m) k (ms ++ [m]) := by
  obtain ⟨hqueue, hserial⟩ := hh
  constructor
  · show (h.writeQueue ++ [m.bytes h.outSerial]).flatten = _
    rw [List.flatten_append, List.flatten_singleton, hqueue, bytesFrom_append, ← hserial, bytesFrom,
      bytesFrom, List.append_nil]
  · show h.outSerial + 1 = _
    rw [hserial, List.length_append, List.length_singleton, Nat.add_assoc]

theorem Waits.flushQueueTo (hh : Waits h k ms) (queued : List Message) :
    (h.flushQueueTo queued).2 = bytesFrom k (ms ++ queued) ∧
      Waits (h.flushQueueTo queued).1 (h.flushQueueTo queued).1.outSerial [] := by
  refine ⟨?_, rfl, rfl⟩
  induction queued generalizing h ms with
  | nil =>
      rw [List.append_nil]
      exact hh.1
  | cons m queued ih =>
      rw [List.append_cons]
      exact ih (hh.sendMessage m)

/-- The messages that are written are received, on their way, or wait. -/
structure Written (w : Connection) (batches : List (Nat × List Message)) (k : Nat)
    (ms : List Message) : Prop where
  responses : w.responses = batches.map fun batch => bytesFrom batch.1 batch.2
  waits : Waits w.handler k ms
  written : w.written = w.socket.received ++ ((batches.map Prod.snd).flatten ++ ms)
  serialQueue : w.socket.serialQueue = .empty

def ResponsesOk (w : Connection) : Prop := ∃ batches k ms, Written w batches k ms

theorem responsesOk_start : ResponsesOk .start := ⟨[], 1, [], rfl, ⟨rfl, rfl⟩, rfl, rfl⟩

theorem responsesOk_arrive {i n : Nat} {r : ProxyRequest} (hw : ResponsesOk w) :
    ResponsesOk (w.arrive i n queued r) := by
  obtain ⟨batches, k, ms, hresponses, hwaits, hwritten, hserials⟩ := hw
  have hkeeps := @parseEmitIncoming_keeps w.handler (r.inBuffer ++ r.coming.take n)
    ((r.inBuffer ++ r.coming.take n).length + 1)
  rw [Connection.arrive]
  generalize parseEmitIncoming _ w.handler _ = parsed at hkeeps ⊢
  obtain ⟨status, handler, inBuffer⟩ := parsed
  have hstill : Waits handler k ms := ⟨hkeeps.1 ▸ hwaits.1, hkeeps.2.trans hwaits.2⟩
  cases status with
  | again => exact ⟨batches, k, ms, hresponses, hstill, hwritten, hserials⟩
  | protocolError => exact ⟨batches, k, ms, hresponses, hstill, hwritten, hserials⟩
  | complete =>
      obtain ⟨hbody, hnext⟩ := hstill.flushQueueTo queued
      refine ⟨batches ++ [(k, ms ++ queued)], _, [], ?_, hnext, ?_, hserials⟩
      · show w.responses ++ [_] = _
        rw [hbody, hresponses, List.map_append, List.map_singleton]
      · show w.written ++ queued = _
        rw [hwritten]
        simp

theorem responsesOk_sendMessage (m : Message) (hw : ResponsesOk w) :
    ResponsesOk { w with handler := w.handler.sendMessage m, written := w.written ++ [m] } := by
  obtain ⟨batches, k, ms, hresponses, hwaits, hwritten, hserials⟩ := hw
  refine ⟨batches, k, ms ++ [m], hresponses, hwaits.sendMessage m, ?_, hserials⟩
  show w.written ++ [m] = _
  rw [hwritten]
  simp

/-- The response that comes has the messages that are next. -/
theorem responsesOk_load {i : Nat} {body : Payload} {socket : ProxySocket}
    (hget : w.responses[i]? = some body) (hload : w.socket.load body = some socket)
    (hturn : w.inTurn (.load i) = true) (hw : ResponsesOk w) :
    ResponsesOk { w with socket := socket, responses := w.responses.eraseIdx i } := by
  obtain ⟨batches, k, ms, hresponses, hwaits, hwritten, hserials⟩ := hw
  rw [hresponses, List.getElem?_map] at hget
  obtain ⟨⟨serial, batch⟩, hbatch, rfl⟩ := Option.map_eq_some_iff.mp hget
  obtain ⟨hlt, hat⟩ := List.getElem?_eq_some_iff.mp hbatch
  have hnext : (batches.map Prod.snd).flatten =
      batch ++ ((batches.eraseIdx i).map Prod.snd).flatten := by
    have hsplit : batches = batches.take i ++ (serial, batch) :: batches.drop (i + 1) := by
      rw [← hat, List.getElem_cons_drop, List.take_append_drop]
    conv_lhs => rw [hsplit]
    rw [List.eraseIdx_eq_take_drop_succ, List.map_append, List.map_append, List.map_cons,
      List.flatten_append, List.flatten_append, List.flatten_cons]
    rcases Bool.or_eq_true_iff.mp hturn with hempty | hbefore
    · rw [beq_iff_eq, hresponses, List.getElem?_map, hbatch] at hempty
      have hnil : batch = [] := bytesFrom_eq_nil (Option.some.inj hempty)
      rw [hnil]
      rfl
    · have hnil : ((batches.take i).map Prod.snd).flatten = [] := by
        rw [List.flatten_eq_nil_iff]
        intro l hl
        obtain ⟨b, hb, rfl⟩ := List.mem_map.mp hl
        rw [hresponses, ← List.map_take, List.all_map, List.all_eq_true] at hbefore
        exact bytesFrom_eq_nil (beq_iff_eq.mp (hbefore b hb))
      rw [hnil]
      rfl
  rw [load_bytesFrom hserials] at hload
  cases hload
  refine ⟨batches.eraseIdx i, k, ms, ?_, hwaits, ?_, hserials⟩
  · show w.responses.eraseIdx i = _
    rw [hresponses, List.eraseIdx_eq_take_drop_succ, List.eraseIdx_eq_take_drop_succ, List.map_append,
      List.map_take, List.map_drop]
  · show w.written = w.socket.received ++ batch ++ _
    rw [hwritten, hnext, List.append_assoc, List.append_assoc]

theorem ResponsesOk.step {e : Event} (hstep : w.step e = some w') (hturn : w.inTurn e = true)
    (hw : ResponsesOk w) : ResponsesOk w' := by
  cases e with
  | opened =>
      cases hstep
      obtain ⟨batches, k, ms, hwritten⟩ := hw
      exact ⟨batches, k, ms, hwritten.responses, hwritten.waits, hwritten.written,
        hwritten.serialQueue⟩
  | send msg =>
      rw [Connection.step] at hstep
      split_ifs at hstep
      cases hstep
      obtain ⟨batches, k, ms, hwritten⟩ := hw
      exact ⟨batches, k, ms, hwritten.responses, hwritten.waits, hwritten.written,
        hwritten.serialQueue⟩
  | doSend =>
      cases hstep
      obtain ⟨batches, k, ms, hresponses, hwaits, hwritten, hserials⟩ := hw
      have hsocket : w.socket.doSend.1.received = w.socket.received ∧
          w.socket.doSend.1.serialQueue = w.socket.serialQueue := by
        rw [ProxySocket.doSend]
        split_ifs <;> exact ⟨rfl, rfl⟩
      exact ⟨batches, k, ms, hresponses, hwaits, hsocket.1.symm ▸ hwritten,
        hsocket.2.trans hserials⟩
  | arrive i n queued =>
      obtain ⟨r, -, rfl⟩ := Option.map_eq_some_iff.mp hstep
      exact responsesOk_arrive hw
  | sendMessage m =>
      cases hstep
      exact responsesOk_sendMessage m hw
  | load i =>
      obtain ⟨body, hget, hload⟩ := Option.bind_eq_some_iff.mp hstep
      obtain ⟨socket, hsocket, rfl⟩ := Option.map_eq_some_iff.mp hload
      exact responsesOk_load hget hsocket hturn hw

theorem ResponsesOk.received (hw : ResponsesOk w) :
    w.socket.received <+: w.written ∧
      ((∀ body ∈ w.responses, body = []) → w.handler.writeQueue = [] →
        w.socket.received = w.written) := by
  obtain ⟨batches, k, ms, hresponses, hwaits, hwritten, -⟩ := hw
  refine ⟨⟨_, hwritten.symm⟩, fun hnone hempty => ?_⟩
  have hms : ms = [] := by
    have hbytes := hwaits.1
    rw [hempty] at hbytes
    exact bytesFrom_eq_nil hbytes.symm
  have hbatches : (batches.map Prod.snd).flatten = [] := by
    rw [List.flatten_eq_nil_iff]
    intro l hl
    obtain ⟨b, hb, rfl⟩ := List.mem_map.mp hl
    exact bytesFrom_eq_nil (hnone _ (hresponses ▸ List.mem_map_of_mem hb))
  rw [hwritten, hbatches, hms, List.append_nil, List.append_nil]

end

/-! ## A run -/

/-- The messages are handled in the order in which they were sent when the responses that carry
messages come in that order. -/
theorem inSequence_of_inTurn (es : List Event) (w : Connection)
    (hrun : run (stepIf Connection.step Connection.inTurn) .start es = some w) :
    w.InSequence := by
  have hinv : RequestsOk w ∧ ResponsesOk w := by
    refine run_invariant _ (I := fun w => RequestsOk w ∧ ResponsesOk w) ?_ hrun
      ⟨requestsOk_start, responsesOk_start⟩
    intro w e w' hstep hw
    obtain ⟨hturn, hstep⟩ := (stepIf_eq_some _).mp hstep
    exact ⟨hw.1.step hstep, hw.2.step hstep hturn⟩
  have hhandled := hinv.1.handled
  have hreceived := hinv.2.received
  exact ⟨hhandled.1, hreceived.1, hhandled.2, hreceived.2⟩

/-- Both ends send, and a response with a message comes after a later one without any. -/
theorem inSequence_of_inTurn_empty_response :
    ∃ w : Connection,
      run (stepIf Connection.step Connection.inTurn) .start
        [.opened, .send ['a'], .doSend, .doSend, .arrive 0 3 [], .arrive 0 20 [⟨true, ['b']⟩],
          .arrive 0 1 [], .load 1, .load 0] = some w ∧
      (w.handler.handled = [['a']] ∧ w.socket.received = [⟨true, ['b']⟩]) ∧ w.InSequence := by
  obtain ⟨w, hrun, hends⟩ := run_reaches (stepIf Connection.step Connection.inTurn) .start
    [.opened, .send ['a'], .doSend, .doSend, .arrive 0 3 [], .arrive 0 20 [⟨true, ['b']⟩],
      .arrive 0 1 [], .load 1, .load 0]
    (P := fun w => w.handler.handled = [['a']] ∧ w.socket.received = [⟨true, ['b']⟩])
    (by decide +kernel)
  exact ⟨w, hrun, hends, inSequence_of_inTurn _ w hrun⟩

/-- Two requests are answered with a message each, and the second response comes first. -/
theorem responses_overtake : ¬ ∀ (es : List Event) (w : Connection),
    run Connection.step .start es = some w → w.InSequence := by
  intro hall
  obtain ⟨w, hrun, hreceived, hwritten⟩ := run_reaches Connection.step .start
    [.opened, .doSend, .doSend, .arrive 0 1 [⟨true, ['a']⟩], .arrive 0 1 [⟨true, ['b']⟩], .load 1]
    (P := fun w => w.socket.received = [⟨true, ['b']⟩] ∧
      w.written = [⟨true, ['a']⟩, ⟨true, ['b']⟩])
    (by decide +kernel)
  have hstart := (hall _ w hrun).received
  rw [hreceived, hwritten, List.cons_prefix_cons] at hstart
  exact absurd hstart.1 (by decide)

end CoolOnline.Proxy
