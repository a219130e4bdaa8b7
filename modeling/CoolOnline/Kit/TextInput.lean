import CoolOnline.Library.History
import CoolOnline.Library.Merging
import CoolOnline.Common.Protocol

/-! # Typed text in the Kit's queue

`KitQueue::put` and `KitQueue::pop` of `kit/KitQueue.cpp`: `_queue`, the messages from wsd that
wait for the Kit. A `textinput` or `removetextcontext` message is combined with one that waits.
-/

namespace CoolOnline.Kit

open StringVector COOLProtocol

/-! ## The words of the messages -/

namespace Word

def textinput : Payload := ['t', 'e', 'x', 't', 'i', 'n', 'p', 'u', 't']
def removetextcontext : Payload :=
  ['r', 'e', 'm', 'o', 'v', 'e', 't', 'e', 'x', 't', 'c', 'o', 'n', 't', 'e', 'x', 't']
def key : Payload := ['k', 'e', 'y']
def mouse : Payload := ['m', 'o', 'u', 's', 'e']
def windowkey : Payload := ['w', 'i', 'n', 'd', 'o', 'w', 'k', 'e', 'y']
def id : Payload := ['i', 'd']
def text : Payload := ['t', 'e', 'x', 't']
def before : Payload := ['b', 'e', 'f', 'o', 'r', 'e']
def after : Payload := ['a', 'f', 't', 'e', 'r']
def tile : Payload := ['t', 'i', 'l', 'e']
def tilecombine : Payload := ['t', 'i', 'l', 'e', 'c', 'o', 'm', 'b', 'i', 'n', 'e']
def callback : Payload := ['c', 'a', 'l', 'l', 'b', 'a', 'c', 'k']

end Word

/-! ## The queue -/

/-- The search back over the queue, from its newest message: the first message that can be merged
is taken out, unless the search stops before. -/
def searchBack (stops : Payload → Bool) (merge : Payload → Option Payload) :
    List Payload → Option (List Payload × Payload)
  | [] => none
  | it :: older =>
      if stops it then none
      else
        match merge it with
        | some newMsg => some (older, newMsg)
        | none => (searchBack stops merge older).map fun (rest, newMsg) => (it :: rest, newMsg)

/-- A queued message of the session of `tokens`. -/
def sameSession (queuedTokens tokens : List Payload) : Bool :=
  queuedTokens.head?.isSome && queuedTokens.head? == tokens.head?

/-- No combination is possible over this message: it is a single token or one of the session's
messages that the commands name. -/
def stopsAt (tokens : List Payload) (commands : List Payload) (it : Payload) : Bool :=
  let queuedTokens := tokenize it ' '
  queuedTokens.length == 1 ||
    (sameSession queuedTokens tokens && commands.any fun command => equals queuedTokens 1 command)

def stopsTextInput (tokens : List Payload) : Payload → Bool :=
  stopsAt tokens [Word.key, Word.mouse, Word.removetextcontext, Word.windowkey]

def stopsRemoveText (tokens : List Payload) : Payload → Bool :=
  stopsAt tokens [Word.key, Word.mouse, Word.textinput, Word.windowkey]

/-- The message of a queued `textinput` with `text` added. -/
def mergeTextInput (tokens : List Payload) (id text : Payload) (it : Payload) : Option Payload :=
  let queuedTokens := tokenize it ' '
  if sameSession queuedTokens tokens && equals queuedTokens 1 Word.textinput &&
      tokenString queuedTokens Word.id == some id then
    (tokenString queuedTokens Word.text).map fun queuedText =>
      queuedTokens.headD [] ++ [' '] ++ Word.textinput ++ [' '] ++ Word.id ++ ['='] ++ id ++
        [' '] ++ Word.text ++ ['='] ++ queuedText ++ text
  else none

/-- The message of a queued `removetextcontext` with the counts added. -/
def mergeRemoveText (tokens : List Payload) (id : Payload) (before after : Int) (it : Payload) :
    Option Payload :=
  let queuedTokens := tokenize it ' '
  if sameSession queuedTokens tokens && equals queuedTokens 1 Word.removetextcontext &&
      getTokenStringFromMessage it Word.id == some id then
    (getTokenIntegerFromMessage it Word.before).bind fun queuedBefore =>
      (getTokenIntegerFromMessage it Word.after).map fun queuedAfter =>
        queuedTokens.headD [] ++ [' '] ++ Word.removetextcontext ++ [' '] ++ Word.id ++ ['='] ++
          id ++ [' '] ++ Word.before ++ ['='] ++ Text.decimal (toInt32 (queuedBefore + before)) ++
          [' '] ++ Word.after ++ ['='] ++ Text.decimal (toInt32 (queuedAfter + after))
  else none

/-- Where the search for a message to merge with stops, and how a message is merged. -/
structure Combination where
  stops : Payload → Bool
  merge : Payload → Option Payload

def textInputCombination (tokens : List Payload) : Option Combination :=
  (tokenString tokens Word.id).bind fun id =>
    (tokenString tokens Word.text).map fun text =>
      ⟨stopsTextInput tokens, mergeTextInput tokens id text⟩

def removeTextCombination (tokens : List Payload) : Option Combination :=
  (tokenString tokens Word.id).bind fun id =>
    (tokenInteger tokens Word.before).bind fun before =>
      (tokenInteger tokens Word.after).map fun after =>
        ⟨stopsRemoveText tokens, mergeRemoveText tokens id before after⟩

/-- The queue without the message merged with, and the new message to put. -/
def combine (queue : List Payload) (c : Combination) : Option (List Payload × Payload) :=
  (searchBack c.stops c.merge queue.reverse).map fun (rest, newMsg) => (rest.reverse, newMsg)

def combineTextInput (queue : List Payload) (tokens : List Payload) :
    Option (List Payload × Payload) :=
  (textInputCombination tokens).bind (combine queue)

def combineRemoveText (queue : List Payload) (tokens : List Payload) :
    Option (List Payload × Payload) :=
  (removeTextCombination tokens).bind (combine queue)

/-- `memcmp` with as much of the word as the message has characters. -/
def startsAs (rest word : Payload) : Bool :=
  let n := min rest.length word.length
  rest.take n == word.take n

/-- Whether the message is text input, and whether it removes text. -/
def textItem (value firstToken : Payload) : Option Bool :=
  let offset := firstToken.length
  if value.length < offset + 3 then none
  else if startsAs (value.drop (offset + 1)) Word.textinput then some false
  else if startsAs (value.drop (offset + 1)) Word.removetextcontext then some true
  else none

/-- Tile requests have queues of their own, callbacks do not come from the client. -/
def isQueuedApart (value : Payload) : Bool :=
  getFirstToken value == Word.tilecombine || getFirstToken value == Word.tile ||
    getFirstToken value == Word.callback

/-- `KitQueue::put`; an empty item is refused. -/
def put (queue : List Payload) (value : Payload) : Option (List Payload) :=
  if value = [] then none
  else if isQueuedApart value then some queue
  else
    let tokens := tokenize value ' '
    let combined :=
      match textItem value (getFirstToken value) with
      | some true => combineRemoveText queue tokens
      | some false => combineTextInput queue tokens
      | none => none
    match combined with
    | some (rest, newMsg) => some (rest ++ [newMsg])
    | none => some (queue ++ [value])

/-! ## The search -/

/-- How the text input message `value` is combined. -/
def combination (value : Payload) : Option Combination :=
  (textItem value (getFirstToken value)).bind fun removeText =>
    if removeText then removeTextCombination (tokenize value ' ')
    else textInputCombination (tokenize value ' ')

theorem put_eq (queue : List Payload) {value : Payload} (hne : value ≠ [])
    (hapart : isQueuedApart value = false) :
    put queue value =
      match (combination value).bind (combine queue) with
      | some (rest, newMsg) => some (rest ++ [newMsg])
      | none => some (queue ++ [value]) := by
  simp only [put, hne, hapart, combination, if_false, Bool.false_eq_true]
  cases textItem value (getFirstToken value) with
  | none => rfl
  | some removeText =>
      cases removeText with
      | true => rfl
      | false => rfl

/-! ## Effective events -/

/-- What a message of a session does. -/
inductive InputEvent
  | textInput (id text : Payload)
  | removeText (id : Payload) (before after : Int)
  | other (message : Payload)
deriving DecidableEq, Repr

namespace InputEvent

/-- Two neighbours in one: texts one after the other, counts added where the sums are counts. -/
def join : InputEvent → InputEvent → Option InputEvent
  | .textInput id text, .textInput id' text' =>
      if id = id' then some (.textInput id (text ++ text')) else none
  | .removeText id before after, .removeText id' before' after' =>
      if id = id' ∧ IsInt32 (before + before') ∧ IsInt32 (after + after') then
        some (.removeText id (before + before') (after + after'))
      else none
  | _, _ => none

def removal (tokens : List Payload) : Option InputEvent :=
  (tokenString tokens Word.id).bind fun id =>
    (tokenInteger tokens Word.before).bind fun before =>
      (tokenInteger tokens Word.after).map fun after => .removeText id before after

def input (tokens : List Payload) : Option InputEvent :=
  (tokenString tokens Word.id).bind fun id =>
    (tokenString tokens Word.text).map fun text => .textInput id text

def ofMessage (message : Payload) : InputEvent :=
  let tokens := tokenize message ' '
  if equals tokens 1 Word.textinput then (input tokens).getD (.other message)
  else if equals tokens 1 Word.removetextcontext then (removal tokens).getD (.other message)
  else .other message

theorem input_eq_some {tokens : List Payload} {e : InputEvent} (h : input tokens = some e) :
    ∃ id text, tokenString tokens Word.id = some id ∧
      tokenString tokens Word.text = some text ∧ e = .textInput id text := by
  obtain ⟨id, hid, h⟩ := Option.bind_eq_some_iff.mp h
  obtain ⟨text, htext, rfl⟩ := Option.map_eq_some_iff.mp h
  exact ⟨id, text, hid, htext, rfl⟩

theorem removal_eq_some {tokens : List Payload} {e : InputEvent} (h : removal tokens = some e) :
    ∃ id before after, tokenString tokens Word.id = some id ∧
      tokenInteger tokens Word.before = some before ∧
      tokenInteger tokens Word.after = some after ∧ e = .removeText id before after := by
  obtain ⟨id, hid, h⟩ := Option.bind_eq_some_iff.mp h
  obtain ⟨before, hbefore, h⟩ := Option.bind_eq_some_iff.mp h
  obtain ⟨after, hafter, rfl⟩ := Option.map_eq_some_iff.mp h
  exact ⟨id, before, after, hid, hbefore, hafter, rfl⟩

theorem ofMessage_of_removetextcontext {message : Payload}
    (h : equals (tokenize message ' ') 1 Word.removetextcontext = true) :
    ofMessage message = (removal (tokenize message ' ')).getD (.other message) := by
  have hinput : equals (tokenize message ' ') 1 Word.textinput = false := by
    simp only [equals, beq_iff_eq] at h
    rw [equals, h]
    decide
  simp [ofMessage, h, hinput]

/-- The event of a message is what its tokens say. -/
theorem ofMessage_cases (message : Payload) :
    (input (tokenize message ' ') = some (ofMessage message)) ∨
      (removal (tokenize message ' ') = some (ofMessage message)) ∨
      ofMessage message = .other message := by
  simp only [ofMessage]
  split
  · cases h : input (tokenize message ' ') <;> simp
  · split
    · cases h : removal (tokenize message ' ') <;> simp
    · simp

theorem tokens_of_textInput {message id text : Payload}
    (h : ofMessage message = .textInput id text) :
    tokenString (tokenize message ' ') Word.id = some id ∧
      tokenString (tokenize message ' ') Word.text = some text := by
  rcases ofMessage_cases message with hin | hrem | hother
  · obtain ⟨id', text', hid, htext, he⟩ := input_eq_some hin
    rw [h] at he
    cases he
    exact ⟨hid, htext⟩
  · obtain ⟨id', before, after, -, -, -, he⟩ := removal_eq_some hrem
    rw [h] at he
    cases he
  · rw [h] at hother
    cases hother

theorem tokens_of_removeText {message id : Payload} {before after : Int}
    (h : ofMessage message = .removeText id before after) :
    tokenString (tokenize message ' ') Word.id = some id ∧
      tokenInteger (tokenize message ' ') Word.before = some before ∧
      tokenInteger (tokenize message ' ') Word.after = some after := by
  rcases ofMessage_cases message with hin | hrem | hother
  · obtain ⟨id', text', -, -, he⟩ := input_eq_some hin
    rw [h] at he
    cases he
  · obtain ⟨id', before', after', hid, hbefore, hafter, he⟩ := removal_eq_some hrem
    rw [h] at he
    cases he
    exact ⟨hid, hbefore, hafter⟩
  · rw [h] at hother
    cases hother

theorem join_textInput {id text : Payload} {e e' : InputEvent}
    (h : join (.textInput id text) e = some e') :
    ∃ text', e = .textInput id text' ∧ e' = .textInput id (text ++ text') := by
  cases e with
  | textInput id' text' =>
      simp only [join] at h
      split at h
      · rename_i hid
        cases h
        exact ⟨text', by rw [hid], rfl⟩
      · cases h
  | removeText id' before after => cases h
  | other message => cases h

theorem join_removeText {id : Payload} {before after : Int} {e e' : InputEvent}
    (h : join (.removeText id before after) e = some e') :
    ∃ before' after', e = .removeText id before' after' ∧ IsInt32 (before + before') ∧
      IsInt32 (after + after') ∧ e' = .removeText id (before + before') (after + after') := by
  cases e with
  | textInput id' text' => cases h
  | removeText id' before' after' =>
      simp only [join] at h
      split at h
      · rename_i hid
        cases h
        exact ⟨before', after', by rw [hid.1], hid.2.1, hid.2.2, rfl⟩
      · cases h
  | other message => cases h

end InputEvent

/-! ## Messages of a session -/

/-- The identifier of a session, in the characters `Util::encodeId` prints. -/
structure ViewId where
  id : List Char
  alnum : ∀ c ∈ id, c.isAlphanum = true

namespace ViewId

variable (v : ViewId)

def token : Payload := ['c', 'h', 'i', 'l', 'd', '-'] ++ v.id

/-- What `DocumentBroker::forwardToChild` sends. -/
def message (message : Payload) : Payload := v.token ++ ' ' :: message

theorem isToken_token : IsToken v.token := by
  have hstart : IsToken ['c', 'h', 'i', 'l', 'd', '-'] := by decide
  apply hstart.append_of_forall
  intro c hc
  have halnum := v.alnum c hc
  constructor
  · rintro rfl
    exact absurd halnum (by decide)
  · rintro rfl
    exact absurd halnum (by decide)

theorem tokens_message (message : Payload) :
    (tokenize (v.message message) ' ').head? = some v.token := by
  have hhead : (v.message message).head? ≠ some '\x00' := by simp [ViewId.message, token]
  have hline : (v.message message).takeWhile (· != '\n') =
      v.token ++ ' ' :: message.takeWhile (· != '\n') := by
    have hall : ∀ c ∈ v.token, (c != '\n') = true := fun c hc => by
      simpa using (v.isToken_token.ne_of_mem hc).2
    simp [ViewId.message, List.takeWhile_append_of_pos hall]
  simp [tokenize, hhead, hline, Text.fields_append_sep v.isToken_token.1]

theorem firstToken_message (message : Payload) : getFirstToken (v.message message) = v.token := by
  have hall : ∀ c ∈ v.token, (c != ' ') = true := fun c hc => by
    simpa using (v.isToken_token.ne_of_mem hc).1
  simp [getFirstToken, ViewId.message, List.takeWhile_append_of_pos hall]

theorem isQueuedApart_message (message : Payload) : isQueuedApart (v.message message) = false := by
  simp [isQueuedApart, firstToken_message, token, Word.tile, Word.tilecombine, Word.callback]

theorem message_ne_nil (message : Payload) : v.message message ≠ [] := by
  simp [ViewId.message]

/-- A message of the session that is made of tokens. -/
theorem tokenize_command (tokens : List Payload) (h : ∀ token ∈ tokens, IsToken token)
    (hne : tokens ≠ []) :
    tokenize (v.token ++ ' ' :: [' '].intercalate tokens) ' ' = v.token :: tokens := by
  have hmessage : v.token ++ ' ' :: [' '].intercalate tokens =
      [' '].intercalate (v.token :: tokens) := by
    cases tokens with
    | nil => exact absurd rfl hne
    | cons t ts => simp [List.intercalate_cons_cons]
  rw [hmessage]
  apply tokenize_intercalate
  · intro token ht
    rcases List.mem_cons.mp ht with rfl | ht
    · exact v.isToken_token
    · exact h token ht
  · rw [← hmessage]
    simp [token]

end ViewId

/-- A value without blanks and line ends. -/
def IsValue (value : Payload) : Prop := ∀ c ∈ value, c ≠ ' ' ∧ c ≠ '\n'

theorem isValue_of_tokenString {message name value : Payload}
    (h : tokenString (tokenize message ' ') name = some value) : IsValue value := by
  obtain ⟨token, htoken, hvalue⟩ := List.exists_of_findSome?_eq_some h
  simp only [getTokenString] at hvalue
  split at hvalue
  · cases hvalue
    intro c hc
    exact (isToken_of_mem_tokenize htoken).ne_of_mem (List.mem_of_mem_drop hc)
  · cases hvalue

theorem IsValue.append {value value' : Payload} (h : IsValue value) (h' : IsValue value') :
    IsValue (value ++ value') := by
  intro c hc
  rcases List.mem_append.mp hc with hc | hc
  · exact h c hc
  · exact h' c hc

theorem isValue_decimal (n : Int) : IsValue (Text.decimal n) := by
  intro c hc
  rcases Text.mem_decimal hc with rfl | hdigit
  · decide
  · constructor
    · rintro rfl
      exact absurd hdigit (by decide)
    · rintro rfl
      exact absurd hdigit (by decide)

namespace InputEvent

variable (v : ViewId)

/-- A token `name=value`. -/
theorem isToken_named {name value : Payload} (hname : IsToken (name ++ ['=']))
    (hvalue : IsValue value) : IsToken (name ++ ['='] ++ value) :=
  hname.append_of_forall hvalue

/-- The event of the message that `mergeTextInput` makes. -/
theorem ofMessage_textInput {id text : Payload} (hid : IsValue id) (htext : IsValue text) :
    ofMessage (v.token ++ [' '] ++ Word.textinput ++ [' '] ++ Word.id ++ ['='] ++ id ++
      [' '] ++ Word.text ++ ['='] ++ text) = .textInput id text := by
  have htokens := v.tokenize_command
    [Word.textinput, Word.id ++ ['='] ++ id, Word.text ++ ['='] ++ text] (by
      intro token ht
      simp only [List.mem_cons, List.not_mem_nil, or_false] at ht
      rcases ht with rfl | rfl | rfl
      · decide
      · exact isToken_named (by decide) hid
      · exact isToken_named (by decide) htext) (by simp)
  have hmessage : v.token ++ [' '] ++ Word.textinput ++ [' '] ++ Word.id ++ ['='] ++ id ++
      [' '] ++ Word.text ++ ['='] ++ text = v.token ++ ' ' :: [' '].intercalate
        [Word.textinput, Word.id ++ ['='] ++ id, Word.text ++ ['='] ++ text] := by
    simp [List.intercalate_cons_cons]
  simp only [hmessage, ofMessage, htokens]
  simp [equals, input, tokenString_cons, getTokenString, ViewId.token, Word.id, Word.text,
    Word.textinput]

theorem ofMessage_removeText {id : Payload} {before after : Int} (hid : IsValue id)
    (hbefore : IsInt32 before) (hafter : IsInt32 after) :
    ofMessage (v.token ++ [' '] ++ Word.removetextcontext ++ [' '] ++ Word.id ++ ['='] ++ id ++
      [' '] ++ Word.before ++ ['='] ++ Text.decimal before ++ [' '] ++ Word.after ++ ['='] ++
      Text.decimal after) = .removeText id before after := by
  have htokens := v.tokenize_command
    [Word.removetextcontext, Word.id ++ ['='] ++ id,
      Word.before ++ ['='] ++ Text.decimal before, Word.after ++ ['='] ++ Text.decimal after] (by
      intro token ht
      simp only [List.mem_cons, List.not_mem_nil, or_false] at ht
      rcases ht with rfl | rfl | rfl | rfl
      · decide
      · exact isToken_named (by decide) hid
      · exact isToken_named (by decide) (isValue_decimal before)
      · exact isToken_named (by decide) (isValue_decimal after)) (by simp)
  have hmessage : v.token ++ [' '] ++ Word.removetextcontext ++ [' '] ++ Word.id ++ ['='] ++ id ++
      [' '] ++ Word.before ++ ['='] ++ Text.decimal before ++ [' '] ++ Word.after ++ ['='] ++
      Text.decimal after = v.token ++ ' ' :: [' '].intercalate
        [Word.removetextcontext, Word.id ++ ['='] ++ id,
          Word.before ++ ['='] ++ Text.decimal before,
          Word.after ++ ['='] ++ Text.decimal after] := by
    simp [List.intercalate_cons_cons]
  simp only [hmessage, ofMessage, htokens]
  simp [equals, removal, tokenString_cons, tokenInteger_cons, getTokenString, getTokenInteger,
    ViewId.token, strtol_decimal, hbefore, hafter, toInt32_of_isInt32, Word.id, Word.before,
    Word.after, Word.removetextcontext, Word.textinput]

end InputEvent

/-! ## Merging keeps the events -/

theorem token_of_sameSession {queuedTokens tokens : List Payload} {token : Payload}
    (h : sameSession queuedTokens tokens = true) (htokens : tokens.head? = some token) :
    queuedTokens.headD [] = token := by
  simp only [sameSession, Bool.and_eq_true, beq_iff_eq] at h
  rw [List.headD_eq_head?_getD, h.2, htokens, Option.getD_some]

/-- The event of a merged text is the join of the events. -/
theorem ofMessage_mergeTextInput (v : ViewId) {m it newMsg id text : Payload} {e : InputEvent}
    (htoken : (tokenize m ' ').head? = some v.token)
    (hid : tokenString (tokenize m ' ') Word.id = some id)
    (htext : tokenString (tokenize m ' ') Word.text = some text)
    (hmerge : mergeTextInput (tokenize m ' ') id text it = some newMsg)
    (hjoin : (InputEvent.ofMessage it).join (InputEvent.ofMessage m) = some e) :
    InputEvent.ofMessage newMsg = e := by
  simp only [mergeTextInput] at hmerge
  split at hmerge
  · rename_i hsame
    simp only [Bool.and_eq_true, beq_iff_eq] at hsame
    obtain ⟨⟨hsession, hcommand⟩, hqid⟩ := hsame
    obtain ⟨queuedText, hqtext, rfl⟩ := Option.map_eq_some_iff.mp hmerge
    have hit : InputEvent.ofMessage it = .textInput id queuedText := by
      simp [InputEvent.ofMessage, hcommand, InputEvent.input, hqid, hqtext]
    rw [hit] at hjoin
    obtain ⟨text', hm, rfl⟩ := InputEvent.join_textInput hjoin
    have htext' : text' = text := by
      have h := (InputEvent.tokens_of_textInput hm).2
      rw [htext] at h
      exact (Option.some.inj h).symm
    have hvalue := (isValue_of_tokenString hqtext).append (isValue_of_tokenString htext)
    rw [htext', token_of_sameSession hsession htoken, List.append_assoc]
    exact InputEvent.ofMessage_textInput v (isValue_of_tokenString hid) hvalue
  · cases hmerge

theorem ofMessage_mergeRemoveText (v : ViewId) {m it newMsg id : Payload} {before after : Int}
    {e : InputEvent} (htoken : (tokenize m ' ').head? = some v.token)
    (hid : tokenString (tokenize m ' ') Word.id = some id)
    (hbefore : tokenInteger (tokenize m ' ') Word.before = some before)
    (hafter : tokenInteger (tokenize m ' ') Word.after = some after)
    (hmerge : mergeRemoveText (tokenize m ' ') id before after it = some newMsg)
    (hjoin : (InputEvent.ofMessage it).join (InputEvent.ofMessage m) = some e) :
    InputEvent.ofMessage newMsg = e := by
  simp only [mergeRemoveText, getTokenIntegerFromMessage] at hmerge
  split at hmerge
  · rename_i hsame
    simp only [Bool.and_eq_true, beq_iff_eq] at hsame
    obtain ⟨⟨hsession, hcommand⟩, -⟩ := hsame
    obtain ⟨queuedBefore, hqbefore, hmerge⟩ := Option.bind_eq_some_iff.mp hmerge
    obtain ⟨queuedAfter, hqafter, rfl⟩ := Option.map_eq_some_iff.mp hmerge
    have hit := InputEvent.ofMessage_of_removetextcontext hcommand
    cases hremoval : InputEvent.removal (tokenize it ' ') with
    | none =>
        rw [hit, hremoval] at hjoin
        cases hjoin
    | some removal =>
        obtain ⟨id', b, a, -, hb, ha, rfl⟩ := InputEvent.removal_eq_some hremoval
        rw [hqbefore] at hb
        rw [hqafter] at ha
        cases hb
        cases ha
        rw [hit, hremoval] at hjoin
        obtain ⟨before', after', hm, hsumb, hsuma, rfl⟩ := InputEvent.join_removeText hjoin
        obtain ⟨hid', hbefore', hafter'⟩ := InputEvent.tokens_of_removeText hm
        rw [hid] at hid'
        rw [hbefore] at hbefore'
        rw [hafter] at hafter'
        cases hid'
        cases hbefore'
        cases hafter'
        rw [token_of_sameSession hsession htoken, toInt32_of_isInt32 hsumb,
          toInt32_of_isInt32 hsuma]
        exact InputEvent.ofMessage_removeText v (isValue_of_tokenString hid) hsumb hsuma
  · cases hmerge

/-- A merge of two events that can be joined joins them. -/
theorem ofMessage_merge (v : ViewId) {message it newMsg : Payload} {c : Combination}
    {e : InputEvent}
    (hc : combination (v.message message) = some c) (hmerge : c.merge it = some newMsg)
    (hjoin : (InputEvent.ofMessage it).join (InputEvent.ofMessage (v.message message)) = some e) :
    InputEvent.ofMessage newMsg = e := by
  have htoken := v.tokens_message message
  obtain ⟨removeText, -, hc⟩ := Option.bind_eq_some_iff.mp hc
  cases removeText with
  | true =>
      obtain ⟨id, hid, hc⟩ := Option.bind_eq_some_iff.mp hc
      obtain ⟨before, hbefore, hc⟩ := Option.bind_eq_some_iff.mp hc
      obtain ⟨after, hafter, rfl⟩ := Option.map_eq_some_iff.mp hc
      exact ofMessage_mergeRemoveText v htoken hid hbefore hafter hmerge hjoin
  | false =>
      obtain ⟨id, hid, hc⟩ := Option.bind_eq_some_iff.mp hc
      obtain ⟨text, htext, rfl⟩ := Option.map_eq_some_iff.mp hc
      exact ofMessage_mergeTextInput v htoken hid htext hmerge hjoin

/-! ## Runs -/

/-- A message that the search reaches and merges. -/
def reaches (c : Combination) : List Payload → Bool
  | [] => false
  | it :: older => !c.stops it && ((c.merge it).isSome || reaches c older)

/-- If the search reaches a message that it merges, that one is the newest of the queue, and the two
are texts typed with one id, or removals whose counts have sums. -/
def joinsNewest (queue : List Payload) (value : Payload) : Bool :=
  match combination value, queue.reverse with
  | some c, it :: older =>
      if c.stops it then true
      else if (c.merge it).isSome then
        ((InputEvent.ofMessage it).join (InputEvent.ofMessage value)).isSome
      else !reaches c older
  | _, _ => true

/-- The queue, with the messages put into it and those that were popped, oldest first. -/
structure Typing where
  queue : List Payload
  sent : List Payload
  delivered : List Payload
deriving DecidableEq, Repr

inductive Op
  | put (message : Payload)
  | pop
deriving DecidableEq, Repr

namespace Typing

def start : Typing := ⟨[], [], []⟩

/-- A session's message is put into the queue, or the Kit pops one. -/
def step (v : ViewId) (s : Typing) : Op → Option Typing
  | .put message => (put s.queue (v.message message)).map fun queue =>
      { s with queue := queue, sent := s.sent ++ [v.message message] }
  | .pop =>
      match s.queue with
      | [] => some s
      | front :: queue => some { s with queue := queue, delivered := s.delivered ++ [front] }

/-- The events delivered and queued are those put, up to joined neighbours. -/
def InOrder (s : Typing) : Prop :=
  MergesTo InputEvent.join (s.sent.map InputEvent.ofMessage)
    ((s.delivered ++ s.queue).map InputEvent.ofMessage)

/-- Every message put finds nothing to merge with but its neighbour. -/
def keepsOrder (v : ViewId) (s : Typing) : Op → Bool
  | .put message => joinsNewest s.queue (v.message message)
  | .pop => true

theorem reaches_of_searchBack {c : Combination} {l : List Payload} {r : List Payload × Payload}
    (h : searchBack c.stops c.merge l = some r) : reaches c l = true := by
  induction l generalizing r with
  | nil => cases h
  | cons it older ih =>
      simp only [searchBack] at h
      split at h
      · cases h
      · rename_i hstops
        cases hmerge : c.merge it with
        | some newMsg => simp [reaches, hstops, hmerge]
        | none =>
            simp only [hmerge] at h
            obtain ⟨r', hrec, -⟩ := Option.map_eq_some_iff.mp h
            simp [reaches, hstops, ih hrec]

/-- Under the condition a combination replaces the newest message. -/
theorem combine_of_joinsNewest {queue rest : List Payload} {value newMsg : Payload}
    {c : Combination} (hc : combination value = some c)
    (hjoins : joinsNewest queue value = true) (h : combine queue c = some (rest, newMsg)) :
    ∃ it e, queue = rest ++ [it] ∧ c.merge it = some newMsg ∧
      (InputEvent.ofMessage it).join (InputEvent.ofMessage value) = some e := by
  obtain ⟨⟨older, msg⟩, hsearch, hpair⟩ := Option.map_eq_some_iff.mp h
  cases hpair
  cases hqueue : queue.reverse with
  | nil =>
      rw [hqueue] at hsearch
      cases hsearch
  | cons it rest' =>
      rw [hqueue] at hsearch
      simp only [joinsNewest, hc, hqueue] at hjoins
      simp only [searchBack] at hsearch
      split at hsearch
      · cases hsearch
      · rename_i hstops
        cases hmerge : c.merge it with
        | some found =>
            simp only [hmerge] at hsearch
            cases hsearch
            simp only [hstops, hmerge, Option.isSome_some, if_true, Bool.false_eq_true,
              if_false] at hjoins
            obtain ⟨e, hjoin⟩ := Option.isSome_iff_exists.mp hjoins
            refine ⟨it, e, ?_, hmerge, hjoin⟩
            rw [← List.reverse_reverse queue, hqueue, List.reverse_cons]
        | none =>
            simp only [hmerge] at hsearch
            obtain ⟨r, hrec, -⟩ := Option.map_eq_some_iff.mp hsearch
            simp [hstops, hmerge, reaches_of_searchBack hrec] at hjoins

theorem step_inOrder {v : ViewId} {s s' : Typing} {op : Op} (hC : s.keepsOrder v op = true)
    (h : s.step v op = some s') (hs : s.InOrder) : s'.InOrder := by
  cases op with
  | pop =>
      simp only [step] at h
      split at h
      · cases h
        exact hs
      · rename_i front queue hqueue
        cases h
        simpa [InOrder, hqueue] using hs
  | put message =>
      obtain ⟨queue, hput, rfl⟩ := Option.map_eq_some_iff.mp h
      have hnew := hs.append_right [InputEvent.ofMessage (v.message message)]
      rw [put_eq s.queue (v.message_ne_nil message) (v.isQueuedApart_message message)] at hput
      cases hcombined : (combination (v.message message)).bind (combine s.queue) with
      | none =>
          rw [hcombined] at hput
          cases hput
          simpa [InOrder] using hnew
      | some combined =>
          obtain ⟨rest, newMsg⟩ := combined
          rw [hcombined] at hput
          cases hput
          obtain ⟨c, hc, hcombine⟩ := Option.bind_eq_some_iff.mp hcombined
          obtain ⟨it, e, hqueue, hmerge, hjoin⟩ := combine_of_joinsNewest hc hC hcombine
          have he := ofMessage_merge v hc hmerge hjoin
          simp only [InOrder, hqueue, List.map_append, List.map_cons, List.map_nil,
            ← List.append_assoc] at hs
          simpa [InOrder, he] using hs.join_last hjoin

/-- The queue keeps the order of a session's events while every message merges with its neighbour
only. -/
theorem typing_inOrder {v : ViewId} {ops : List Op} {s : Typing}
    (hrun : run (stepIf (step v) (keepsOrder v)) start ops = some s) : s.InOrder := by
  refine run_invariant _ (I := InOrder) ?_ hrun (MergesTo.refl _)
  intro s op s' hstep hs
  obtain ⟨hC, hstep⟩ := (stepIf_eq_some _).mp hstep
  exact step_inOrder hC hstep hs

/-- A session of the tests. -/
def fooView : ViewId := ⟨['f', 'o', 'o'], List.all_eq_true.mp (by decide)⟩

theorem typing_inOrder_neighbours : ∃ s, run (stepIf (step fooView) (keepsOrder fooView)) start
      [.put "textinput id=0 text=a".toList, .put "textinput id=0 text=b".toList,
        .put "uno .uno:Bold".toList, .pop,
        .put "removetextcontext id=0 before=1 after=0".toList,
        .put "removetextcontext id=0 before=1 after=0".toList] = some s ∧
    s.delivered = ["child-foo textinput id=0 text=ab".toList] ∧ s.InOrder := by
  obtain ⟨s, hrun, hdelivered⟩ := run_reaches (stepIf (step fooView) (keepsOrder fooView)) start
    [.put "textinput id=0 text=a".toList, .put "textinput id=0 text=b".toList,
      .put "uno .uno:Bold".toList, .pop,
      .put "removetextcontext id=0 before=1 after=0".toList,
      .put "removetextcontext id=0 before=1 after=0".toList]
    (P := fun s => s.delivered = ["child-foo textinput id=0 text=ab".toList])
    (by decide +kernel)
  exact ⟨s, hrun, hdelivered, typing_inOrder hrun⟩

/-- Text typed after a command is merged into text typed before it, behind the command. -/
theorem typing_past_command : ¬ ∀ (v : ViewId) (ops : List Op) (s : Typing),
    run (step v) start ops = some s → s.InOrder := by
  intro h
  obtain ⟨s, hrun, hchain, hne⟩ := run_reaches (step fooView) start
    [.put "textinput id=0 text=a".toList, .put "uno .uno:Bold".toList,
      .put "textinput id=0 text=b".toList]
    (P := fun s => (s.sent.map InputEvent.ofMessage).IsChain (fun e e' => e.join e' = none) ∧
      (s.delivered ++ s.queue).map InputEvent.ofMessage ≠ s.sent.map InputEvent.ofMessage)
    (by decide +kernel)
  exact hne (MergesTo.eq_of_isChain hchain (h _ _ _ hrun))

end Typing

end CoolOnline.Kit
