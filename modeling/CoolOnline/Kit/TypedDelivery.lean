import CoolOnline.Kit.TypedMessages

/-! # The document that is typed

The text input of the browser, the Kit's queue and the document in the Kit, in any order of events
and turns.
-/

namespace CoolOnline.Kit

open Browser.Typing

/-! ## What the text input sends -/

section Sound

variable {mode : Mode} {input : TextInput} {text : JsString} {inputType : Option InputType}

def SendsSound (h : Handled) : Prop := ∀ m ∈ h.sent, IsSound m

theorem sendsSound_nil (input : TextInput) : SendsSound (TextInput.sends input []) := by
  simp [SendsSound, TextInput.sends]

theorem sendsSound_threw (input : TextInput) : SendsSound ⟨input, [], true⟩ := by
  simp [SendsSound]

theorem sendsSound_removal (input : TextInput) (before after : Nat) :
    SendsSound (TextInput.sends input [.removeTextContent before after]) := by
  simp [SendsSound, TextInput.sends, IsSound]

theorem sendsSound_ite {p : Prop} [Decidable p] {input : TextInput} {sent sent' : List Sent}
    (h : SendsSound (TextInput.sends input sent)) (h' : SendsSound (TextInput.sends input sent')) :
    SendsSound (TextInput.sends input (if p then sent else sent')) := by
  split
  · exact h
  · exact h'

theorem SendsSound.andThen {h : Handled} {next : TextInput → Handled} (hfirst : SendsSound h)
    (hnext : ∀ input, SendsSound (next input)) : SendsSound (h.andThen next) := by
  unfold Handled.andThen
  split
  · exact hfirst
  · intro m hm
    rcases List.mem_append.mp hm with hm | hm
    · exact hfirst m hm
    · exact hnext _ m hm

theorem autoCorrectChars_sound : ∀ entry ∈ TextInput.autoCorrectChars,
    IsTypingKey entry.2.1.1 entry.2.1.2 ∧ entry.2.2.1 = 0 ∧ entry.2.2.2 < 0x2000 := by
  unfold IsTypingKey
  decide

theorem sendsSound_keys {codes : TextInput.Codes} (h : TextInput.autoCorrectChar text = some codes)
    (input : TextInput) : SendsSound (TextInput.sends input (TextInput.sendKeys codes)) := by
  unfold TextInput.autoCorrectChar at h
  split at h
  · rename_i unit
    obtain ⟨entry, hentry, rfl⟩ := Option.map_eq_some_iff.mp h
    obtain ⟨front, back, htable, -⟩ := List.lookup_eq_some_iff.mp hentry
    have hmem : (unit, entry) ∈ TextInput.autoCorrectChars := by simp [htable]
    obtain ⟨htyping, hup⟩ := autoCorrectChars_sound _ hmem
    simpa [SendsSound, TextInput.sends, TextInput.sendKeys, IsSound, htyping] using hup
  · split at h
    · cases h
      simp [SendsSound, TextInput.sends, TextInput.sendKeys, IsSound]
    · cases h

theorem sendsSound_composition (h : text.all isPlainUnit = true) (input : TextInput) :
    SendsSound (TextInput.sendComposition input text) := by
  unfold TextInput.sendComposition
  split
  · simpa [SendsSound, TextInput.sends, IsSound] using h
  · exact sendsSound_threw input

theorem sendsSound_sendPart (h : text.all isPlainUnit = true) (input : TextInput) :
    SendsSound (TextInput.sendPart mode input text) := by
  unfold TextInput.sendPart TextInput.sendCompositionEvent
  split
  · exact sendsSound_nil input
  split
  · rename_i hcodes
    split
    · exact sendsSound_composition h input
    split
    · dsimp only
      split
      · rename_i hseparator
        exact sendsSound_keys hseparator _
      · exact sendsSound_threw _
    · exact sendsSound_keys hcodes input
  · exact sendsSound_composition h input

theorem sendsSound_lineBreak (input : TextInput) {unoKeyCode : Nat}
    (h : unoKeyCode = 1280 ∨ unoKeyCode = 5376) :
    SendsSound (TextInput.sends input [.key (some 13) (some unoKeyCode) .input]) := by
  simp [SendsSound, TextInput.sends, IsSound, IsReturnKey, h]

theorem sendsSound_sendParts {parts : List JsString}
    (h : ∀ part ∈ parts, part.all isPlainUnit = true) (input : TextInput) :
    SendsSound (TextInput.sendParts mode input parts) := by
  induction parts generalizing input with
  | nil => exact sendsSound_nil input
  | cons part parts ih =>
      apply SendsSound.andThen
      · apply (sendsSound_lineBreak _ (.inl rfl)).andThen
        exact fun input => sendsSound_sendPart (h part List.mem_cons_self) input
      · exact fun input => ih (fun part hpart => h part (List.mem_cons_of_mem _ hpart)) input

theorem sendsSound_newline (input : TextInput) : SendsSound (TextInput.sendNewlineEvent input) := by
  unfold TextInput.sendNewlineEvent
  apply sendsSound_lineBreak
  split
  · exact .inr rfl
  · exact .inl rfl

theorem sendsSound_sendText (h : text.all isPlainUnit = true) (input : TextInput) :
    SendsSound (TextInput.sendText mode input text) := by
  obtain ⟨part, parts, hsplit, htext, -⟩ := parts_of_splitOnP text
  have hfed : (text.map lineFeed).all isPlainUnit = true := by
    simp only [List.all_map, List.all_eq_true, Function.comp_apply] at h ⊢
    intro unit hunit
    unfold lineFeed
    split
    · decide
    · exact h unit hunit
  rw [← htext, List.all_append, Bool.and_eq_true, List.all_flatMap] at hfed
  unfold TextInput.sendText
  rw [hsplit]
  split
  · exact sendsSound_newline input
  · apply (sendsSound_sendPart hfed.1 input).andThen
    apply sendsSound_sendParts
    intro part hpart
    have hbehind := List.all_eq_true.mp hfed.2 part hpart
    simp only [behindBreak, List.all_cons, Bool.and_eq_true] at hbehind
    exact hbehind.2

theorem sendsSound_sendDifference {content : JsString} (h : text.all isPlainUnit = true)
    (input : TextInput) :
    SendsSound (TextInput.sendDifference mode inputType content text input) := by
  unfold TextInput.sendDifference TextInput.sendNewText
  split
  · exact sendsSound_nil input
  split
  · rename_i hdigit
    have hrange := hdigit.2.2.2.1
    obtain ⟨digit, rfl, -⟩ := TextInput.isDigit_cases hrange
    simp only [TextInput.isDigit, Bool.and_eq_true, decide_eq_true_eq, UInt16.le_iff_toNat_le,
      UInt16.reduceToNat] at hrange
    simp only [SendsSound, TextInput.sends, List.mem_singleton, forall_eq, IsSound, IsTypingKey,
      TextInput.unoKey, List.headD_cons]
    omega
  · exact sendsSound_sendText h input

theorem sendsSound_onInput {area : Area} (h : area.value.all isPlainUnit = true)
    (input : TextInput) : SendsSound (TextInput.onInput mode input area inputType) := by
  unfold TextInput.onInput
  split
  · exact sendsSound_nil input
  dsimp only
  split
  · exact sendsSound_newline _
  split
  · exact sendsSound_ite (sendsSound_nil _) (sendsSound_removal _ 1 0)
  split
  · exact sendsSound_removal _ 0 1
  · have hnew (n : Nat) : (area.value.drop n).all isPlainUnit = true := by
      rw [List.all_eq_true] at h ⊢
      exact fun unit hunit => h unit (List.mem_of_mem_drop hunit)
    unfold TextInput.compareContent
    apply SendsSound.andThen
    · apply SendsSound.andThen
      · exact sendsSound_ite (sendsSound_removal _ _ _) (sendsSound_nil _)
      · exact sendsSound_sendDifference (hnew _)
    · exact fun input => sendsSound_nil _

theorem sendsSound_onBeforeInput (selection : TextInput.Selection) (input : TextInput) :
    SendsSound (TextInput.onBeforeInput mode input selection inputType) := by
  unfold TextInput.onBeforeInput TextInput.handleMisplacedCursorAtBeginning
  split
  · exact sendsSound_nil input
  apply SendsSound.andThen
  · split
    · exact sendsSound_nil _
    split
    · split
      · exact sendsSound_removal _ 1 0
      · exact sendsSound_nil _
    · exact sendsSound_nil _
  · intro input
    split
    · exact sendsSound_removal _ 0 1
    · exact sendsSound_nil input

/-- The content of the area, where an event has one. -/
def contentOf : TextEvent → JsString
  | .input area _ => area.value
  | .compositionEnd _ area => area.value
  | _ => []

theorem sendsSound_handle {event : TextEvent} (h : (contentOf event).all isPlainUnit = true) :
    SendsSound (input.handle mode event) := by
  cases event with
  | keyDown keyCode shiftKey numPadDecimal => exact sendsSound_nil _
  | beforeInput selection inputType => exact sendsSound_onBeforeInput selection input
  | input area inputType => exact sendsSound_onInput h input
  | compositionEnd data area => exact sendsSound_onInput h _
  | emptyArea => exact sendsSound_nil _

end Sound

/-! ## Pending messages -/

section Pending

variable {v : ViewId} {winId : Nat} {queue sent : List Sent} {m m' joined : Sent}

def countsOf (queue : List Sent) : Nat := (queue.map counts).sum

theorem countsOf_append (queue sent : List Sent) :
    countsOf (queue ++ sent) = countsOf queue + countsOf sent := by
  rw [countsOf, List.map_append, List.sum_append, countsOf, countsOf]

theorem countsOf_cons (m : Sent) (queue : List Sent) :
    countsOf (m :: queue) = counts m + countsOf queue := by
  rw [countsOf, List.map_cons, List.sum_cons, countsOf]

/-- What is joined does both, and is counted as both. -/
theorem joinSent_spec (h : joinSent m m' = some joined) :
    (∀ text : CursorText Char, text.receive charOf joined =
      (text.receive charOf m).receive charOf m') ∧
    counts joined = counts m + counts m' ∧ (IsSound m → IsSound m' → IsSound joined) := by
  unfold joinSent at h
  split at h
  · cases h
    refine ⟨fun text => by simp [CursorText.receive], rfl, fun hm hm' => ?_⟩
    simp only [IsSound] at hm hm' ⊢
    rw [List.all_append, hm, hm']
    rfl
  · rename_i before after before' after'
    cases h
    refine ⟨fun text => ?_, by simp only [counts]; omega, fun _ _ => trivial⟩
    simp only [CursorText.receive, CursorText.remove, List.take_take, List.length_take,
      List.drop_drop, CursorText.mk.injEq, and_true]
    congr 1
    omega
  · cases h

/-- A new message is pending with the others. -/
theorem push_spec (queue : List Sent) (m : Sent) :
    (∀ text : CursorText Char, (push queue m).foldl (CursorText.receive charOf) text =
      (queue.foldl (CursorText.receive charOf) text).receive charOf m) ∧
    countsOf (push queue m) = countsOf queue + counts m ∧
    ((∀ q ∈ queue, IsSound q) → IsSound m → ∀ q ∈ push queue m, IsSound q) := by
  rcases queue.eq_nil_or_concat with rfl | ⟨older, newest, rfl⟩
  · simp [push, countsOf]
  rw [List.concat_eq_append]
  cases hjoin : joinSent newest m with
  | none =>
      have hpush : push (older ++ [newest]) m = older ++ [newest] ++ [m] := by simp [push, hjoin]
      rw [hpush]
      refine ⟨fun text => by simp, by simp [countsOf, Nat.add_assoc], fun hqueue hm q hq => ?_⟩
      rcases List.mem_append.mp hq with hq | hq
      · exact hqueue q hq
      · exact List.mem_singleton.mp hq ▸ hm
  | some joined =>
      obtain ⟨hreceive, hcounts, hsound⟩ := joinSent_spec hjoin
      have hpush : push (older ++ [newest]) m = older ++ [joined] := by simp [push, hjoin]
      rw [hpush]
      refine ⟨fun text => by simp [hreceive], by simp [countsOf, hcounts, Nat.add_assoc],
        fun hqueue hm q hq => ?_⟩
      rcases List.mem_append.mp hq with hq | hq
      · exact hqueue q (List.mem_append_left _ hq)
      · exact List.mem_singleton.mp hq ▸ hsound (hqueue newest (by simp)) hm

/-- A message of the session's client comes to the Kit. -/
def putSent (v : ViewId) (winId : Nat) (queue : List Payload) (m : Sent) : Option (List Payload) :=
  (m.message winId true).bind fun text => put queue (v.message text)

/-- The queue, as messages of the session's client. -/
structure Pending (v : ViewId) (winId : Nat) (queue : List Payload) (pending : List Sent) :
    Prop where
  queue : queue = pending.map (payload v winId)
  sound : ∀ m ∈ pending, IsSound m

theorem counts_le_of_mem (h : m ∈ queue) : counts m ≤ countsOf queue := by
  obtain ⟨front, back, rfl⟩ := List.append_of_mem h
  simp only [countsOf, List.map_append, List.map_cons, List.sum_append, List.sum_cons]
  omega

theorem Pending.put {payloads : List Payload} (h : Pending v winId payloads queue) (hm : IsSound m)
    (hcounts : countsOf queue + counts m < 2 ^ 31) :
    ∃ payloads', putSent v winId payloads m = some payloads' ∧
      Pending v winId payloads' (push queue m) := by
  obtain ⟨text, htext, hmessage⟩ := Option.map_eq_some_iff.mp (message_of_isSound hm)
  refine ⟨(push queue m).map (payload v winId), ?_, rfl, (push_spec queue m).2.2 h.sound hm⟩
  rw [putSent, htext, Option.bind_some, hmessage, h.queue]
  apply put_payload h.sound hm
  intro q hq
  have hle := counts_le_of_mem hq
  omega

theorem Pending.putAll {payloads : List Payload} (h : Pending v winId payloads queue)
    (hsent : ∀ m ∈ sent, IsSound m) (hcounts : countsOf queue + countsOf sent < 2 ^ 31) :
    ∃ payloads' pending, sent.foldlM (putSent v winId) payloads = some payloads' ∧
      Pending v winId payloads' pending ∧ countsOf pending = countsOf queue + countsOf sent ∧
      ∀ text : CursorText Char, pending.foldl (CursorText.receive charOf) text =
        sent.foldl (CursorText.receive charOf) (queue.foldl (CursorText.receive charOf) text) := by
  induction sent generalizing payloads queue with
  | nil => exact ⟨payloads, queue, rfl, h, by simp [countsOf], fun text => rfl⟩
  | cons m sent ih =>
      obtain ⟨hreceive, hcount, -⟩ := push_spec queue m
      rw [countsOf_cons] at hcounts ⊢
      obtain ⟨payloads₁, hput, hnext⟩ := h.put (hsent m List.mem_cons_self) (by omega)
      obtain ⟨payloads', pending, hall, hpending, htotal, htext⟩ := ih hnext
        (fun m' hm' => hsent m' (List.mem_cons_of_mem m hm')) (by omega)
      refine ⟨payloads', pending, ?_, hpending, by omega, fun text => ?_⟩
      · rw [List.foldlM_cons, hput]
        exact hall
      · rw [htext, hreceive, List.foldl_cons]

end Pending

/-! ## Runs -/

/-- The browser with the document in which one types there, what it has sent, and the Kit. -/
structure TypedDelivery (δ : Type) where
  typed : TypedDocument Char
  inFlight : List Sent
  queue : List Payload
  document : δ
  /-- How many characters the messages have removed. -/
  removed : Nat

namespace TypedDelivery

variable {δ : Type} (lok : LokDocument δ) (poco : PocoURI) (v : ViewId)
variable (winId : Nat)

inductive Event
  | typed (mode : Mode) (event : TextEvent)
  /-- A message comes to the Kit. -/
  | arrive
  /-- A turn of `drainQueue`. -/
  | pop
deriving DecidableEq, Repr

/-- A document with its cursor, and nothing typed. -/
def start (textAt : δ → CursorText Char) (document : δ) : TypedDelivery δ :=
  ⟨.start (textAt document), [], [], document, 0⟩

variable (s : TypedDelivery δ)

def sent (mode : Mode) (event : TextEvent) : List Sent := (s.typed.input.handle mode event).sent

def step : Event → Option (TypedDelivery δ)
  | .typed mode event =>
      (TypedDocument.step charOf s.typed (.typed mode event)).map fun typed =>
        { s with
          typed
          inFlight := s.inFlight ++ s.sent mode event
          removed := s.removed + countsOf (s.sent mode event) }
  | .arrive =>
      match s.inFlight with
      | [] => some s
      | m :: inFlight =>
          (putSent v winId s.queue m).map fun queue => { s with inFlight, queue }
  | .pop =>
      match s.queue with
      | [] => some s
      | front :: queue =>
          some { s with queue, document := forwardToChild lok poco v front s.document }

/-- All that is typed consists of plain code units, and the characters that are removed can be
counted. -/
def isPlain : Event → Bool
  | .typed mode event =>
      s.typed.isPlain (.typed mode event) && (contentOf event).all isPlainUnit &&
        s.removed + countsOf (s.sent mode event) < 2 ^ 31
  | _ => true

/-- The document when all has come to the Kit and has been handled. -/
def settled : Option δ :=
  (s.inFlight.foldlM (putSent v winId) s.queue).map fun queue =>
    queue.foldl (fun document front => forwardToChild lok poco v front document) s.document

/-- What is in flight or queued makes the document in the Kit the one in the browser. -/
structure Delivers (textAt : δ → CursorText Char) : Prop where
  shown : s.typed.Shown charOf
  sound : ∀ m ∈ s.inFlight, IsSound m
  pending : ∃ pending, Pending v winId s.queue pending ∧
    countsOf pending + countsOf s.inFlight ≤ s.removed ∧
    s.inFlight.foldl (CursorText.receive charOf)
      (pending.foldl (CursorText.receive charOf) (textAt s.document)) = s.typed.text
  counted : s.removed < 2 ^ 31

variable {lok poco v winId} {textAt : δ → CursorText Char}

theorem delivers_start (document : δ) : (start textAt document).Delivers v winId textAt :=
  ⟨TypedDocument.shown_start charOf _, by simp [start], ⟨[], ⟨rfl, by simp⟩, Nat.le_refl _, rfl⟩,
    show 0 < 2 ^ 31 by decide⟩

theorem step_typed {s s' : TypedDelivery δ} {mode : Mode} {event : TextEvent}
    (hstep : stepIf (step lok poco v winId) isPlain s (.typed mode event) = some s')
    (h : s.Delivers v winId textAt) : s'.Delivers v winId textAt := by
  obtain ⟨hplain, hstep⟩ := (stepIf_eq_some _).mp hstep
  simp only [isPlain, Bool.and_eq_true, decide_eq_true_eq] at hplain
  obtain ⟨⟨hplain, hunits⟩, hcounts⟩ := hplain
  obtain ⟨typed, htyped, rfl⟩ := Option.map_eq_some_iff.mp hstep
  obtain ⟨pending, hpending, hle, htext⟩ := h.pending
  have hshown := TypedDocument.step_shown ((stepIf_eq_some _).mpr ⟨hplain, htyped⟩) h.shown
  have hsent : SendsSound (s.typed.input.handle mode event) := sendsSound_handle hunits
  refine ⟨hshown, fun m hm => ?_, ⟨pending, hpending, ?_, ?_⟩, hcounts⟩
  · exact (List.mem_append.mp hm).elim (h.sound m) (hsent m)
  · dsimp only
    rw [countsOf_append]
    omega
  · have htypedText : typed.text =
        (s.typed.input.handle mode event).onText charOf s.typed.text := by
      simp only [TypedDocument.step] at htyped
      split at htyped
      · cases htyped
      · cases htyped
        rfl
    rw [List.foldl_append, htext, htypedText, Handled.onText, sent]

theorem step_arrive {s s' : TypedDelivery δ}
    (hstep : step lok poco v winId s .arrive = some s') (h : s.Delivers v winId textAt) :
    s'.Delivers v winId textAt := by
  obtain ⟨pending, hpending, hle, htext⟩ := h.pending
  have hsound := h.sound
  have hcounted := h.counted
  simp only [step] at hstep
  split at hstep
  · exact Option.some_inj.mp hstep ▸ h
  · rename_i m inFlight hflight
    rw [hflight] at hsound hle htext
    rw [countsOf_cons] at hle
    obtain ⟨queue, hput, hnext⟩ := hpending.put (hsound m List.mem_cons_self) (by omega)
    rw [hput] at hstep
    cases hstep
    obtain ⟨hreceive, hcount, -⟩ := push_spec pending m
    refine ⟨h.shown, fun q hq => hsound q (.tail m hq), ⟨push pending m, hnext, ?_, ?_⟩, hcounted⟩
    · dsimp only
      omega
    · rw [hreceive, ← htext, List.foldl_cons]

theorem forwardToChild_pending (hlok : lok.Types textAt winId)
    (hdecode : Unescapes poco) (hwin : IsInt32 winId) {m : Sent} (hsound : IsSound m)
    (hcounts : counts m < 2 ^ 31) (document : δ) :
    textAt (forwardToChild lok poco v (payload v winId m) document) =
      (textAt document).receive charOf m := by
  rw [forwardToChild_payload lok poco hsound]
  exact textAt_handleInput hlok hdecode hwin hsound hcounts document

variable (hlok : lok.Types textAt winId) (hdecode : Unescapes poco) (hwin : IsInt32 winId)
include hlok hdecode hwin

theorem step_delivers {s s' : TypedDelivery δ} {event : Event}
    (hstep : stepIf (step lok poco v winId) isPlain s event = some s')
    (h : s.Delivers v winId textAt) : s'.Delivers v winId textAt := by
  cases event with
  | typed mode event => exact step_typed hstep h
  | arrive => exact step_arrive ((stepIf_eq_some _).mp hstep).2 h
  | pop =>
      have hpop := ((stepIf_eq_some _).mp hstep).2
      obtain ⟨pending, ⟨hqueue, hsound⟩, hle, htext⟩ := h.pending
      cases pending with
      | nil =>
          rw [List.map_nil] at hqueue
          simp only [step, hqueue] at hpop
          exact Option.some_inj.mp hpop ▸ h
      | cons m pending =>
          rw [List.map_cons] at hqueue
          simp only [step, hqueue] at hpop
          cases hpop
          have hcounted := h.counted
          rw [countsOf_cons] at hle
          refine ⟨h.shown, h.sound, ⟨pending, ⟨rfl, fun q hq => hsound q (.tail m hq)⟩,
            by dsimp only; omega, ?_⟩, hcounted⟩
          dsimp only
          rw [← htext, List.foldl_cons,
            forwardToChild_pending hlok hdecode hwin (hsound m List.mem_cons_self) (by omega)]

/-- Pending messages do together what they do one after the other. -/
theorem textAt_drained {queue : List Sent} (hsound : ∀ m ∈ queue, IsSound m)
    (hcounts : countsOf queue < 2 ^ 31) (document : δ) :
    textAt ((queue.map (payload v winId)).foldl
      (fun document front => forwardToChild lok poco v front document) document) =
      queue.foldl (CursorText.receive charOf) (textAt document) := by
  induction queue generalizing document with
  | nil => rfl
  | cons m queue ih =>
      rw [countsOf_cons] at hcounts
      rw [List.map_cons, List.foldl_cons, ih (fun q hq => hsound q (.tail m hq)) (by omega),
        forwardToChild_pending hlok hdecode hwin (hsound m List.mem_cons_self) (by omega),
        List.foldl_cons]

omit hlok hdecode hwin

/-! A document of nothing but text, as an example. -/

def textOfBytes (bytes : Payload) : List Char :=
  ((bytes.map fun c => UInt8.ofNat c.toNat).toByteArray.utf8Decode?.map Array.toList).getD []

theorem textOfBytes_utf8 (text : List Char) : textOfBytes ((utf8 text).map byteChar) = text := by
  have hbytes : ((utf8 text).map byteChar).map (fun c => UInt8.ofNat c.toNat) = utf8 text := by
    rw [List.map_map]
    apply (List.map_congr_left ?_).trans (List.map_id _)
    intro byte hbyte
    rw [Function.comp_apply, toNat_byteChar, UInt8.ofNat_toNat, id]
  have hdecoded : (utf8 text).toByteArray.utf8Decode? = some text.toArray :=
    List.utf8Decode?_utf8Encode
  rw [textOfBytes, hbytes, hdecoded]
  rfl

def plainDocument : LokDocument (CursorText Char) where
  postKeyEvent type charCode _ document :=
    match type with
    | .keyInput => document.insert [if charCode = 13 then '\n' else Char.ofNat charCode.toNat]
    | .keyUp => document
  postWindowExtTextInputEvent _ type text document :=
    match type with
    | .textInput => document
    | .textInputEnd => document.insert (textOfBytes text)
  removeTextContext _ before after document := document.remove before.toNat after.toNat
  otherCommand _ document := document

theorem plainDocument_types (winId : Nat) : plainDocument.Types id winId where
  composed text _ document := by simp [plainDocument, textOfBytes_utf8]
  removed before after document := rfl
  typed {charCode _} h document := by
    obtain ⟨hlow, -⟩ := h
    have hne : (charCode : Int) ≠ 13 := by omega
    simp [plainDocument, hne]
  returned h document := by
    obtain ⟨rfl, -⟩ := h
    rfl
  released charCode keyCode document := rfl

/-- The session `child-1`. -/
def onlySession : ViewId := ⟨['1'], List.all_eq_true.mp (by decide)⟩

/-- A word that is corrected, and a line break. -/
def corrections : List Event :=
  [.typed TypedDocument.writer (.input (TypedDocument.areaOf "helo") (some .other)),
    .arrive,
    .pop,
    .typed TypedDocument.writer (.input (TypedDocument.areaOf "hey") (some .other)),
    .typed TypedDocument.writer (.input (TypedDocument.areaOf "heyo") (some .other)),
    .arrive, .arrive, .arrive,
    .typed TypedDocument.writer (.input (TypedDocument.areaOf "héllo\nall") (some .other))]

end TypedDelivery

end CoolOnline.Kit
