import CoolOnline.Library.History

/-! # The slurp queue of the browser

`Socket` of `browser/src/app/Socket.ts`: messages are put into a queue when they come, and a timer
hands them to `_onMessage`, inside a transaction of the tile manager. What the tile manager does is
not modelled, only that it calls back; nor are traces and the delay that is measured.
-/

namespace CoolOnline.Browser

/-- A message: its number is when it came. -/
structure SlurpMessageEvent where
  number : Nat
  textMsg : List Char
  /-- There is an image, which is complete or still loading. -/
  image : Option Bool
deriving DecidableEq, Repr

/-- `_extractTextImg` gives a message this function. -/
def SlurpMessageEvent.isComplete (e : SlurpMessageEvent) : Bool := e.image.getD true

/-- Its image is complete, if it is the one with this number. -/
def SlurpMessageEvent.loaded (number : Nat) (e : SlurpMessageEvent) : SlurpMessageEvent :=
  if e.number = number then { e with image := e.image.map fun _ => true } else e

/-- A message as it comes: its text, and the bytes behind it. -/
structure Incoming where
  textMsg : List Char
  img : Option (List UInt8)
  /-- `TileManager.predictTilesToSlurp` at that time. -/
  predictedTiles : Int

namespace Incoming

variable (m : Incoming)

def startsWith (word : String) : Bool := word.toList.isPrefixOf m.textMsg

/-- The image of `_extractTextImg`: deltas and the previews of tiles are complete at once. -/
def image (experimental : Bool) : Option Bool :=
  let isTile := m.startsWith "tile:"
  let isDelta := m.startsWith "delta:"
  if experimental && (m.startsWith "slidelayer:" || m.startsWith "sliderenderingcomplete:") then none
  else if !isTile && !isDelta && !m.startsWith "renderfont:" && !m.startsWith "slidelayer:" &&
      !m.startsWith "windowpaint:" then none
  else if m.textMsg.tails.any fun rest => " nopng".toList.isPrefixOf rest then none
  else if (m.img.any fun bytes => bytes.head? ≠ some 80) && (isTile || isDelta) then some true
  else some isTile

/-- `CanvasTileLayer.filterSlurpedMessage`. -/
def filterSlurpedMessage : Bool := m.startsWith "invalidatetiles:"

end Incoming

/-- What is done while `_onMessage` handles a message. -/
inductive Action
  | slurp (m : Incoming) (now : Int)
  | docLayer (there : Bool)

structure Handling where
  actions : List Action
  /-- The exception that the handler throws. -/
  thrown : Option String

structure Socket where
  experimental : Bool
  /-- There is a `_docLayer`. -/
  docLayer : Bool
  slurpQueue : List SlurpMessageEvent
  inLayerTransaction : Bool
  slurpDuringTransaction : Bool
  /-- The timer, with the delay that it was set with. -/
  slurpTimer : Option Int
  slurpTimerDelay : Option Int
  slurpTimerLaunchTime : Option Int
  /-- The callbacks that the tile manager has and has not called. -/
  completeCallbacks : Nat
  /-- How many messages have come, and those that were not filtered. -/
  arrived : Nat
  slurped : List Nat
  /-- What `_onMessage` was called with, and the exceptions that it threw. -/
  handled : List Nat
  errors : List String

namespace Socket

def start (experimental : Bool) : Socket :=
  { experimental := experimental, docLayer := false, slurpQueue := [], inLayerTransaction := false,
    slurpDuringTransaction := false, slurpTimer := none, slurpTimerDelay := none,
    slurpTimerLaunchTime := none, completeCallbacks := 0, arrived := 0, slurped := [], handled := [],
    errors := [] }

section

variable (s : Socket)

def setTimeout (delayMS now : Int) : Socket :=
  let s :=
    if s.slurpTimerLaunchTime.getD 0 = 0 then
      { s with slurpTimerLaunchTime := some now, slurpTimerDelay := some delayMS }
    else s
  { s with slurpTimer := some delayMS }

/-- A timer that is there is replaced when the delay is another one. -/
def queueSlurpEventEmission (delayMS now : Int) : Socket :=
  if s.slurpTimer.isSome then
    if s.slurpTimerDelay ≠ some delayMS then
      let s := { s with slurpTimer := none, slurpTimerDelay := some delayMS }
      match s.slurpTimerLaunchTime with
      | none => s
      | some launchTime =>
          let delayMS := delayMS - (now - launchTime)
          s.setTimeout (if delayMS ≤ 0 then 1 else delayMS) now
    else s
  else s.setTimeout delayMS now

def slurpMessage (m : Incoming) (now : Int) : Socket :=
  let e : SlurpMessageEvent := ⟨s.arrived, m.textMsg, m.image s.experimental⟩
  let s := { s with arrived := s.arrived + 1 }
  if s.docLayer && m.filterSlurpedMessage then s
  else
    { s with
      slurpQueue := s.slurpQueue ++ [e]
      slurped := s.slurped ++ [e.number] }.queueSlurpEventEmission (max (min m.predictedTiles 50) 1) now

/-- The image of a message has been loaded, or cannot be. -/
def imageLoaded (number : Nat) (now : Int) : Socket :=
  { s with
    slurpQueue := s.slurpQueue.map (SlurpMessageEvent.loaded number) }.queueSlurpEventEmission 1 now

def act : Action → Socket
  | .slurp m now => s.slurpMessage m now
  | .docLayer there => { s with docLayer := there }

/-- `_onMessage` is called; what it throws is caught. -/
def onMessage (e : SlurpMessageEvent) (h : Handling) : Socket :=
  let s := h.actions.foldl act { s with handled := s.handled ++ [e.number] }
  { s with errors := s.errors ++ h.thrown.toList }

/-- The loop over the queue, as long as it was before the loop: whether all was complete. -/
def emitFrom : Nat → Nat → Socket → List Handling → Socket × Bool
  | 0, _, s, _ => (s, true)
  | left + 1, i, s, handlings =>
      match s.slurpQueue[i]? with
      | none => (s, true) -- The queue does not get shorter.
      | some e =>
          if e.isComplete then
            emitFrom left (i + 1) (s.onMessage e (handlings.headD ⟨[], none⟩)) handlings.tail
          else ({ s with slurpQueue := (s.slurpQueue.take (i + (left + 1))).drop i }, false)

def completeCallback (now : Int) : Socket :=
  let s := { s with inLayerTransaction := false }
  if s.slurpDuringTransaction then
    { s with slurpDuringTransaction := false }.queueSlurpEventEmission 1 now
  else s

/-- The messages are handled: inside a transaction of the tile manager, if there is a layer. -/
def emitMessages (handlings : List Handling) : Socket :=
  let queueLength := s.slurpQueue.length
  let s := if s.docLayer then { s with inLayerTransaction := true } else s
  let (s, complete) := emitFrom queueLength 0 s handlings
  if complete then { s with slurpQueue := [] } else s

/-- The tile manager calls back at once, or later. -/
def emitSlurpedEvents (handlings : List Handling) (atOnce : Bool) (now : Int) : Socket :=
  let s := s.emitMessages handlings
  if s.inLayerTransaction && s.docLayer && !atOnce then
    { s with completeCallbacks := s.completeCallbacks + 1 }
  else s.completeCallback now

def timer (handlings : List Handling) (atOnce : Bool) (now : Int) : Socket :=
  let s := { s with slurpTimer := none, slurpTimerLaunchTime := none, slurpTimerDelay := none }
  if s.inLayerTransaction then { s with slurpDuringTransaction := true }
  else s.emitSlurpedEvents handlings atOnce now

end

inductive Event
  | slurp (m : Incoming) (now : Int)
  | imageLoaded (number : Nat) (now : Int)
  /-- The timer fires: what the handlers do, and whether the tile manager calls back at once. -/
  | timer (handlings : List Handling) (atOnce : Bool) (now : Int)
  | completeCallback (now : Int)
  /-- The layer is there, or no longer. -/
  | docLayer (there : Bool)

def step (s : Socket) : Event → Option Socket
  | .slurp m now => some (s.slurpMessage m now)
  | .imageLoaded number now => some (s.imageLoaded number now)
  | .timer handlings atOnce now =>
      if s.slurpTimer.isSome then some (s.timer handlings atOnce now) else none
  | .completeCallback now =>
      if s.completeCallbacks = 0 then none
      else some ({ s with completeCallbacks := s.completeCallbacks - 1 }.completeCallback now)
  | .docLayer there => some { s with docLayer := there }

/-- Every message that was not filtered has been handled once and in its place, or waits, and the
queue is not left to itself. -/
structure Delivers (s : Socket) : Prop where
  arrival : s.slurped.Pairwise (· < ·)
  once : s.handled ++ s.slurpQueue.map SlurpMessageEvent.number = s.slurped
  timer : s.inLayerTransaction = false →
    (s.slurpQueue.head?.any SlurpMessageEvent.isComplete) = true → s.slurpTimer.isSome = true
  allHandled : s.inLayerTransaction = false → s.slurpTimer = none →
    (∀ e ∈ s.slurpQueue, e.isComplete = true) → s.handled = s.slurped

/-- All that comes is filtered. -/
def filtersAll : Bool → List Action → Bool
  | _, [] => true
  | _, .docLayer there :: actions => filtersAll there actions
  | docLayer, .slurp m _ :: actions =>
      docLayer && m.filterSlurpedMessage && filtersAll docLayer actions

/-- What the handlers that are called do: there is one for each message before the first that is
not complete. -/
def calledHandlings (s : Socket) (handlings : List Handling) : List Handling :=
  handlings.take (s.slurpQueue.takeWhile SlurpMessageEvent.isComplete).length

/-- No message is put into the queue while another one is handled. -/
def undisturbed (s : Socket) : Event → Bool
  | .timer handlings _ _ =>
      s.inLayerTransaction ||
        filtersAll s.docLayer ((s.calledHandlings handlings).flatMap Handling.actions)
  | _ => true

/-! ## The timer -/

section

variable {s s' : Socket} {delayMS now : Int}

theorem setTimeout_eq (s : Socket) (delayMS now : Int) :
    ∃ delay launchTime, s.setTimeout delayMS now =
      { s with
        slurpTimer := some delayMS
        slurpTimerDelay := delay
        slurpTimerLaunchTime := some launchTime } := by
  cases hlaunch : s.slurpTimerLaunchTime with
  | none => exact ⟨some delayMS, now, by simp [setTimeout, hlaunch]⟩
  | some launchTime =>
      by_cases hzero : launchTime = 0
      · exact ⟨some delayMS, now, by simp [setTimeout, hlaunch, hzero]⟩
      · exact ⟨s.slurpTimerDelay, launchTime, by simp [setTimeout, hlaunch, hzero]⟩

/-- A timer is pending then, and nothing else is changed. -/
theorem queueSlurpEventEmission_eq
    (h : s.slurpTimer.isSome = true → s.slurpTimerLaunchTime.isSome = true) (delayMS now : Int) :
    ∃ timer delay launchTime, s.queueSlurpEventEmission delayMS now =
      { s with
        slurpTimer := some timer
        slurpTimerDelay := delay
        slurpTimerLaunchTime := some launchTime } := by
  rw [queueSlurpEventEmission]
  split_ifs with htimer hdelay
  · obtain ⟨launchTime, hlaunch⟩ := Option.isSome_iff_exists.mp (h htimer)
    obtain ⟨delay, launchTime', heq⟩ :=
      setTimeout_eq { s with slurpTimer := none, slurpTimerDelay := some delayMS }
        (if delayMS - (now - launchTime) ≤ 0 then 1 else delayMS - (now - launchTime)) now
    refine ⟨if delayMS - (now - launchTime) ≤ 0 then 1 else delayMS - (now - launchTime), delay,
      launchTime', ?_⟩
    simp only [hlaunch] at heq ⊢
    exact heq
  · obtain ⟨timer, htimer⟩ := Option.isSome_iff_exists.mp htimer
    obtain ⟨launchTime, hlaunch⟩ := Option.isSome_iff_exists.mp (h (htimer ▸ rfl))
    exact ⟨timer, s.slurpTimerDelay, launchTime, by rw [← htimer, ← hlaunch]⟩
  · obtain ⟨delay, launchTime, heq⟩ := setTimeout_eq s delayMS now
    exact ⟨delayMS, delay, launchTime, heq⟩

/-- What holds in every state, whether or not the queue will be looked at again. -/
structure Counted (s : Socket) : Prop where
  arrival : s.slurped.Pairwise (· < ·)
  arrived : ∀ n ∈ s.slurped, n < s.arrived
  once : s.handled ++ s.slurpQueue.map SlurpMessageEvent.number = s.slurped
  launched : s.slurpTimer.isSome = true → s.slurpTimerLaunchTime.isSome = true
  inside : s.slurpDuringTransaction = true → s.inLayerTransaction = true

/-- And the queue will be looked at: by the timer, or at the end of the transaction. -/
structure Watched (s : Socket) : Prop extends Counted s where
  pending : (s.slurpQueue.head?.any SlurpMessageEvent.isComplete) = true →
    s.slurpTimer.isSome = true ∨ s.slurpDuringTransaction = true

theorem Counted.queued (hs : Counted s) (delayMS now : Int) :
    Watched (s.queueSlurpEventEmission delayMS now) := by
  obtain ⟨timer, delay, launchTime, heq⟩ := queueSlurpEventEmission_eq hs.launched delayMS now
  rw [heq]
  exact ⟨⟨hs.arrival, hs.arrived, hs.once, fun _ => rfl, hs.inside⟩, fun _ => .inl rfl⟩

theorem watched_start (experimental : Bool) : Watched (.start experimental) :=
  ⟨⟨.nil, nofun, rfl, nofun, nofun⟩, nofun⟩

theorem Watched.slurpMessage (hs : Watched s) (m : Incoming) (now : Int) :
    Watched (s.slurpMessage m now) := by
  rw [Socket.slurpMessage]
  split_ifs
  · exact ⟨⟨hs.arrival, fun n hn => Nat.lt_succ_of_lt (hs.arrived n hn), hs.once, hs.launched,
      hs.inside⟩, hs.pending⟩
  · apply Counted.queued
    refine ⟨?_, ?_, ?_, hs.launched, hs.inside⟩
    · apply List.pairwise_append.mpr
      refine ⟨hs.arrival, List.pairwise_singleton _ _, fun n hn k hk => ?_⟩
      rw [List.mem_singleton.mp hk]
      exact hs.arrived n hn
    · intro n hn
      rcases List.mem_append.mp hn with hold | hnew
      · exact Nat.lt_succ_of_lt (hs.arrived n hold)
      · rw [List.mem_singleton.mp hnew]
        exact Nat.lt_succ_self _
    · show s.handled ++ (s.slurpQueue ++ [_]).map _ = s.slurped ++ [_]
      rw [List.map_append, ← List.append_assoc, hs.once]
      rfl

theorem Watched.imageLoaded (hs : Watched s) (number : Nat) (now : Int) :
    Watched (s.imageLoaded number now) := by
  apply Counted.queued
  refine ⟨hs.arrival, hs.arrived, ?_, hs.launched, hs.inside⟩
  have hnumbers : (s.slurpQueue.map (SlurpMessageEvent.loaded number)).map SlurpMessageEvent.number =
      s.slurpQueue.map SlurpMessageEvent.number := by
    rw [List.map_map]
    apply List.map_congr_left
    intro e _
    rw [Function.comp_apply, SlurpMessageEvent.loaded]
    split_ifs <;> rfl
  show s.handled ++ _ = s.slurped
  rw [hnumbers, hs.once]

theorem Watched.completeCallback (hs : Watched s) (now : Int) : Watched (s.completeCallback now) := by
  rw [Socket.completeCallback]
  split_ifs with hduring
  · apply Counted.queued
    exact ⟨hs.arrival, hs.arrived, hs.once, hs.launched, nofun⟩
  · refine ⟨⟨hs.arrival, hs.arrived, hs.once, hs.launched, fun h => absurd h hduring⟩, fun h => ?_⟩
    exact hs.pending h

/-! ## An emission -/

variable {actions rest : List Action} {handlings : List Handling} {i left : Nat}

/-- Handlers that put no message into the queue. -/
theorem foldl_act_of_filtersAll (h : filtersAll s.docLayer (actions ++ rest) = true) :
    ∃ docLayer arrived, actions.foldl act s = { s with docLayer := docLayer, arrived := arrived } ∧
      s.arrived ≤ arrived ∧ filtersAll docLayer rest = true := by
  induction actions generalizing s with
  | nil => exact ⟨s.docLayer, s.arrived, rfl, Nat.le_refl _, h⟩
  | cons action actions ih =>
      cases action with
      | docLayer there => exact @ih { s with docLayer := there } h
      | slurp m now =>
          rw [List.cons_append, filtersAll, Bool.and_eq_true] at h
          have hact : s.act (.slurp m now) = { s with arrived := s.arrived + 1 } := if_pos h.1
          obtain ⟨docLayer, arrived, hfold, hle, hrest⟩ := @ih { s with arrived := s.arrived + 1 } h.2
          rw [List.foldl_cons, hact, hfold]
          exact ⟨docLayer, arrived, rfl, Nat.le_of_succ_le hle, hrest⟩

/-- The messages before the first one that is not complete are handled. -/
theorem emitFrom_of_filtersAll (hlength : i + left = s.slurpQueue.length)
    (h : filtersAll s.docLayer ((handlings.take
      ((s.slurpQueue.drop i).takeWhile SlurpMessageEvent.isComplete).length).flatMap
        Handling.actions) = true) :
    ∃ docLayer arrived errors, s.arrived ≤ arrived ∧
      emitFrom left i s handlings =
        ({ s with
          docLayer := docLayer
          arrived := arrived
          errors := errors
          handled := s.handled ++ ((s.slurpQueue.drop i).takeWhile
            SlurpMessageEvent.isComplete).map SlurpMessageEvent.number
          slurpQueue :=
            if (s.slurpQueue.drop i).dropWhile SlurpMessageEvent.isComplete = [] then s.slurpQueue
            else (s.slurpQueue.drop i).dropWhile SlurpMessageEvent.isComplete },
          decide ((s.slurpQueue.drop i).dropWhile SlurpMessageEvent.isComplete = [])) := by
  induction left generalizing i s handlings with
  | zero =>
      have hdrop : s.slurpQueue.drop i = [] := List.drop_of_length_le (by omega)
      refine ⟨s.docLayer, s.arrived, s.errors, Nat.le_refl _, ?_⟩
      rw [emitFrom, hdrop]
      simp
  | succ left ih =>
      have hlt : i < s.slurpQueue.length := by omega
      have hdrop := List.drop_eq_getElem_cons hlt
      rw [emitFrom, List.getElem?_eq_getElem hlt]
      by_cases hcomplete : s.slurpQueue[i].isComplete = true
      · rw [hdrop, List.takeWhile_cons_of_pos hcomplete, List.length_cons] at h
        rw [hdrop, List.takeWhile_cons_of_pos hcomplete, List.dropWhile_cons_of_pos hcomplete]
        simp only [if_pos hcomplete]
        have hhead : ∃ tail, filtersAll s.docLayer ((handlings.headD ⟨[], none⟩).actions ++
            (tail.flatMap Handling.actions)) = true ∧ tail = handlings.tail.take
              ((s.slurpQueue.drop (i + 1)).takeWhile SlurpMessageEvent.isComplete).length := by
          refine ⟨_, ?_, rfl⟩
          cases handlings with
          | nil => simp [filtersAll]
          | cons handling handlings => exact h
        obtain ⟨tail, hactions, rfl⟩ := hhead
        obtain ⟨docLayer, arrived, hfold, hle, hrest⟩ := @foldl_act_of_filtersAll
          { s with handled := s.handled ++ [s.slurpQueue[i].number] } _ _ hactions
        have hhandled : s.onMessage s.slurpQueue[i] (handlings.headD ⟨[], none⟩) =
            { s with
              docLayer := docLayer
              arrived := arrived
              handled := s.handled ++ [s.slurpQueue[i].number]
              errors := s.errors ++ (handlings.headD ⟨[], none⟩).thrown.toList } := by
          rw [onMessage, hfold]
        rw [hhandled]
        obtain ⟨docLayer', arrived', errors', hle', hloop⟩ := @ih
          { s with
            docLayer := docLayer
            arrived := arrived
            handled := s.handled ++ [s.slurpQueue[i].number]
            errors := s.errors ++ (handlings.headD ⟨[], none⟩).thrown.toList }
          handlings.tail (i + 1) (by show i + 1 + left = s.slurpQueue.length; omega) hrest
        refine ⟨docLayer', arrived', errors', Nat.le_trans hle hle', ?_⟩
        rw [hloop]
        simp only [List.map_cons, List.append_assoc, List.singleton_append]
      · rw [hdrop, List.takeWhile_cons_of_neg hcomplete, List.dropWhile_cons_of_neg hcomplete]
        have hslice : (s.slurpQueue.take (i + (left + 1))).drop i =
            s.slurpQueue[i] :: s.slurpQueue.drop (i + 1) := by
          rw [hlength, List.take_length, hdrop]
        refine ⟨s.docLayer, s.arrived, s.errors, Nat.le_refl _, ?_⟩
        simp only [if_neg hcomplete, hslice, List.map_nil, List.append_nil, List.cons_ne_nil,
          if_false, decide_false]

/-- What is left of the queue begins with a message that is not complete. -/
theorem watched_emitMessages (hs : Counted s) (hduring : s.slurpDuringTransaction = false)
    (h : filtersAll s.docLayer ((s.calledHandlings handlings).flatMap Handling.actions) = true) :
    Watched (s.emitMessages handlings) := by
  have hbegin : ∃ inside, (if s.docLayer then { s with inLayerTransaction := true } else s) =
      { s with inLayerTransaction := inside } := by
    split_ifs
    · exact ⟨true, rfl⟩
    · exact ⟨s.inLayerTransaction, rfl⟩
  obtain ⟨inside, hbegin⟩ := hbegin
  obtain ⟨docLayer, arrived, errors, hle, hloop⟩ := @emitFrom_of_filtersAll
    { s with inLayerTransaction := inside } handlings 0 s.slurpQueue.length (Nat.zero_add _) h
  have hemit : s.emitMessages handlings = { s with
      inLayerTransaction := inside
      docLayer := docLayer
      arrived := arrived
      errors := errors
      handled := s.handled ++ (s.slurpQueue.takeWhile SlurpMessageEvent.isComplete).map
        SlurpMessageEvent.number
      slurpQueue := s.slurpQueue.dropWhile SlurpMessageEvent.isComplete } := by
    rw [emitMessages]
    simp only [hbegin, hloop, List.drop_zero, decide_eq_true_eq]
    split_ifs with hempty
    · rw [hempty]
    · rfl
  rw [hemit]
  refine ⟨⟨hs.arrival, fun n hn => Nat.lt_of_lt_of_le (hs.arrived n hn) hle, ?_, hs.launched,
    fun h => absurd h (by simp [hduring])⟩, fun hhead => ?_⟩
  · rw [List.append_assoc, ← List.map_append, List.takeWhile_append_dropWhile]
    exact hs.once
  · obtain ⟨e, hfirst, hcomplete⟩ := (Option.any_eq_true _ _).mp hhead
    have hwaits := List.head?_dropWhile_not SlurpMessageEvent.isComplete s.slurpQueue
    rw [hfirst] at hwaits
    exact absurd hcomplete (by simpa using hwaits)

theorem watched_emitSlurpedEvents (hs : Counted s) (hduring : s.slurpDuringTransaction = false)
    (h : filtersAll s.docLayer ((s.calledHandlings handlings).flatMap Handling.actions) = true)
    (atOnce : Bool) (now : Int) : Watched (s.emitSlurpedEvents handlings atOnce now) := by
  have hemit := watched_emitMessages hs hduring h
  rw [emitSlurpedEvents]
  split_ifs
  · exact ⟨⟨hemit.arrival, hemit.arrived, hemit.once, hemit.launched, hemit.inside⟩, hemit.pending⟩
  · exact hemit.completeCallback now

theorem Watched.timer (hs : Watched s) (atOnce : Bool) (now : Int)
    (h : s.undisturbed (.timer handlings atOnce now) = true) :
    Watched (s.timer handlings atOnce now) := by
  rw [Socket.timer]
  split_ifs with hin
  · exact ⟨⟨hs.arrival, hs.arrived, hs.once, nofun, fun _ => hin⟩, fun _ => .inr rfl⟩
  · have hduring : s.slurpDuringTransaction = false :=
      Bool.eq_false_iff.mpr fun hduring => hin (hs.inside hduring)
    apply watched_emitSlurpedEvents
    · exact ⟨hs.arrival, hs.arrived, hs.once, nofun, hs.inside⟩
    · exact hduring
    · exact (Bool.or_eq_true_iff.mp h).resolve_left hin

/-! ## A run -/

theorem Watched.step {e : Event} (hstep : s.step e = some s') (h : s.undisturbed e = true)
    (hs : Watched s) : Watched s' := by
  cases e with
  | slurp m now =>
      cases hstep
      exact hs.slurpMessage m now
  | imageLoaded number now =>
      cases hstep
      exact hs.imageLoaded number now
  | timer handlings atOnce now =>
      rw [Socket.step] at hstep
      split_ifs at hstep
      cases hstep
      exact hs.timer atOnce now h
  | completeCallback now =>
      rw [Socket.step] at hstep
      split_ifs at hstep
      cases hstep
      apply Watched.completeCallback
      exact ⟨⟨hs.arrival, hs.arrived, hs.once, hs.launched, hs.inside⟩, hs.pending⟩
  | docLayer there =>
      cases hstep
      exact ⟨⟨hs.arrival, hs.arrived, hs.once, hs.launched, hs.inside⟩, hs.pending⟩

theorem Watched.delivers (hs : Watched s) : Delivers s where
  arrival := hs.arrival
  once := hs.once
  timer hin hhead := by
    rcases hs.pending hhead with htimer | hduring
    · exact htimer
    · exact absurd (hs.inside hduring) (by simp [hin])
  allHandled hin htimer hall := by
    have hempty : s.slurpQueue = [] := by
      cases hqueue : s.slurpQueue with
      | nil => rfl
      | cons e queue =>
          have hhead : (s.slurpQueue.head?.any SlurpMessageEvent.isComplete) = true := by
            rw [hqueue]
            exact hall e (hqueue ▸ List.mem_cons_self)
          rcases hs.pending hhead with hsome | hduring
          · rw [htimer] at hsome
            cases hsome
          · exact absurd (hs.inside hduring) (by simp [hin])
    have honce := hs.once
    rw [hempty, List.map_nil, List.append_nil] at honce
    exact honce

end

/-- No message is lost where none comes while another one is handled. -/
theorem delivers_of_undisturbed (experimental : Bool) (es : List Event) (s : Socket)
    (hrun : run (stepIf step undisturbed) (.start experimental) es = some s) : s.Delivers := by
  have hwatched : Watched s := by
    refine run_invariant _ (I := Watched) ?_ hrun (watched_start experimental)
    intro s e s' hstep hs
    obtain ⟨hundisturbed, hstep⟩ := (stepIf_eq_some _).mp hstep
    exact hs.step hstep hundisturbed
  exact hwatched.delivers

/-- Texts, and an image that is waited for while the timer fires inside the transaction. -/
theorem delivers_of_undisturbed_image :
    ∃ s : Socket,
      run (stepIf step undisturbed) (.start false)
        [.docLayer true, .slurp ⟨"status:".toList, none, 0⟩ 1000,
          .slurp ⟨"windowpaint: id=1".toList, some [80], 3⟩ 1000,
          .slurp ⟨"cursorvisible: true".toList, none, 3⟩ 1001,
          .timer [⟨[.slurp ⟨"invalidatetiles: EMPTY".toList, none, 3⟩ 1002], some "no layout"⟩] false
            1002,
          .imageLoaded 1 1003, .timer [] false 1004, .completeCallback 1005,
          .timer [⟨[], none⟩, ⟨[], none⟩] true 1006] = some s ∧
      s.handled = [0, 1, 2] ∧ s.Delivers := by
  obtain ⟨s, hrun, hhandled⟩ := run_reaches (stepIf step undisturbed) (.start false)
    [.docLayer true, .slurp ⟨"status:".toList, none, 0⟩ 1000,
      .slurp ⟨"windowpaint: id=1".toList, some [80], 3⟩ 1000,
      .slurp ⟨"cursorvisible: true".toList, none, 3⟩ 1001,
      .timer [⟨[.slurp ⟨"invalidatetiles: EMPTY".toList, none, 3⟩ 1002], some "no layout"⟩] false 1002,
      .imageLoaded 1 1003, .timer [] false 1004, .completeCallback 1005,
      .timer [⟨[], none⟩, ⟨[], none⟩] true 1006]
    (P := fun s => s.handled = [0, 1, 2]) (by decide +kernel)
  exact ⟨s, hrun, hhandled, delivers_of_undisturbed _ _ s hrun⟩

/-- A message comes while the one before it is handled, and is dropped with the queue. -/
theorem slurped_while_handling_is_lost : ¬ ∀ (experimental : Bool) (es : List Event) (s : Socket),
    run step (.start experimental) es = some s → s.Delivers := by
  intro hall
  obtain ⟨s, hrun, hhandled, hqueue, hslurped⟩ := run_reaches step (.start false)
    [.slurp ⟨"close: recycling".toList, none, 0⟩ 1000,
      .timer [⟨[.slurp ⟨"status:".toList, none, 0⟩ 1001], none⟩] true 1002]
    (P := fun s => s.handled = [0] ∧ s.slurpQueue = [] ∧ s.slurped = [0, 1]) (by decide +kernel)
  have honce := (hall _ _ s hrun).once
  rw [hhandled, hqueue, hslurped] at honce
  exact absurd honce (by decide)

end Socket

end CoolOnline.Browser
