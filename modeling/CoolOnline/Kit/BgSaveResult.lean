import CoolOnline.Common.Protocol
import CoolOnline.Kit.BgSave

/-! # The result of a background save

`BgSaveParentWebSocketHandler` of `kit/KitWebSocket.cpp`: what a Kit makes of the messages of one
save process and of its end, and the results of `.uno:Save` that wsd is sent for this save.
-/

namespace CoolOnline

/-- A JSON object by the texts of its members; taking the text of a missing one throws. -/
abbrev JsonObject := Payload → Option Payload

/-- `JsonUtil::parseJSON`, given the parser for what starts with a brace. -/
def parseJSON (parser : Payload → Option JsonObject) (json : Payload) : Option JsonObject :=
  match json.dropWhile (· != '\x7b') with
  | [] => none
  | text => parser text

namespace Kit

open StringVector

/-- A session, whose id wsd has chosen. -/
structure ChildSession where
  id : Payload
  plain : ∀ c ∈ id, c ≠ ' ' ∧ c ≠ '\n' ∧ c ≠ '\x7b'

inductive Signal
  | segv
  | bus
  | abrt
  | other (number : Nat)
deriving DecidableEq, Repr

/-- What `waitpid` has to say of the process. -/
inductive WaitStatus
  | notReaped
  | stopped
  | exited (code : Nat)
  | signaled (signal : Signal)
deriving DecidableEq, Repr

/-- The signal in what `SigUtil::reapZombieChild` returns, which is only one of a crash. -/
def reapZombieChild : WaitStatus → Option Signal
  | .signaled (.other _) => none
  | .signaled signal => some signal
  | _ => none

/-- The handler, with the document, the state of its socket, and the frames it has sent to wsd,
oldest first. -/
structure BgSaveParent where
  document : Document
  saveCompleted : Bool
  processInput : Bool
  connected : Bool
  sent : List Payload
deriving DecidableEq, Repr

namespace BgSaveParent

/-- The object of a failed save that the handler makes up. -/
def failedResult : Payload :=
  '\x7b' :: " \"commandName\": \".uno:Save\", \"success\": false \x7d".toList

def unoSave : Payload := ['.', 'u', 'n', 'o', ':', 'S', 'a', 'v', 'e']

def commandName : Payload := ['c', 'o', 'm', 'm', 'a', 'n', 'd', 'N', 'a', 'm', 'e']

def success : Payload := ['s', 'u', 'c', 'c', 'e', 's', 's']

def jsontype : Payload := ['j', 's', 'o', 'n', 't', 'y', 'p', 'e']

def resultWord : Payload :=
  ['u', 'n', 'o', 'c', 'o', 'm', 'm', 'a', 'n', 'd', 'r', 'e', 's', 'u', 'l', 't', ':']

def dialogWord : Payload := ['j', 's', 'd', 'i', 'a', 'l', 'o', 'g', ':']

def errorWord : Payload := ['e', 'r', 'r', 'o', 'r', ':']

/-- The messages of the save process that are accepted. -/
def acceptedWords : List Payload :=
  [errorWord, dialogWord, "progress:".toList, "traceevent:".toList, "forcedtraceevent:".toList,
    resultWord]

/-- The dialogs that the user does not have to answer. -/
def benignTypes : List Payload := ["notebookbar".toList, "sidebar".toList, "formulabar".toList]

def clientPrefix : Payload := ['c', 'l', 'i', 'e', 'n', 't', '-']

def trueText : Payload := ['t', 'r', 'u', 'e']

def falseText : Payload := ['f', 'a', 'l', 's', 'e']

def saveFailed (session : ChildSession) : Payload :=
  clientPrefix ++ (session.id ++ (' ' :: (resultWord ++ (' ' :: failedResult))))

section

variable (parser : Payload → Option JsonObject) (session : ChildSession) (s : BgSaveParent)

def sendFrame (data : Payload) : BgSaveParent := { s with sent := s.sent ++ [data] }

def disableBgSave : BgSaveParent := { s with document := s.document.disableBgSave }

def reportFailedSave : BgSaveParent :=
  let s := s.disableBgSave.sendFrame (saveFailed session)
  { s with document := s.document.updateModifiedOnFailedBgSave, saveCompleted := true }

/-- The socket ignores its input from then on. -/
def terminateSave : BgSaveParent := { s with processInput := false }.reportFailedSave session

def handleDialog (tokens : List Payload) : BgSaveParent :=
  match parseJSON parser (cat tokens ' ' 2) with
  | none => s.terminateSave session
  | some object =>
      match object jsontype with
      -- what is thrown is caught around `handleMessage`
      | none => s
      | some type => if type ∈ benignTypes then s else s.terminateSave session

def handleSaved (success : Payload) : BgSaveParent :=
  if success = trueText then
    { s with document := s.document.notifySyntheticUnmodifiedState, saveCompleted := true }
  else
    { s with
      document := s.document.updateModifiedOnFailedBgSave.disableBgSave, saveCompleted := true }

def handleResult (data : Payload) : BgSaveParent :=
  match parseJSON parser data with
  | none => s
  | some object =>
      match object commandName with
      | none => s
      | some command =>
          if command = unoSave then
            match object success with
            -- thrown before the save is taken to be completed
            | none => s
            | some success => s.handleSaved success
          else s

def handleMessage (data : Payload) : BgSaveParent :=
  let tokens := tokenize data ' '
  if acceptedWords.all fun word => !equals tokens 1 word then s
  else if equals tokens 1 dialogWord then s.handleDialog parser session tokens
  else
    let s := s.sendFrame data
    let s := if equals tokens 1 errorWord then s.disableBgSave else s
    if equals tokens 1 resultWord then s.handleResult parser data else s

def onDisconnect (status : WaitStatus) : BgSaveParent :=
  let s := if (reapZombieChild status).isSome then s.reportFailedSave session else s
  if s.saveCompleted then s else s.reportFailedSave session

end

/-- The handler of a save process that has just been forked. -/
def start (document : Document) : BgSaveParent := ⟨document, false, true, true, []⟩

/-- What can happen to the handler: a message of the save process, a close frame of it, the end of
the connection; and to the document, what everything else makes of it. -/
inductive Event
  | message (data : Payload)
  | close
  | disconnect (status : WaitStatus)
  | others (document : Document)
deriving DecidableEq, Repr

def Event.ofSave : Event → Bool
  | .others _ => false
  | _ => true

def step (parser : Payload → Option JsonObject) (session : ChildSession) (s : BgSaveParent) :
    Event → Option BgSaveParent
  | .message data =>
      if s.connected && s.processInput then some (s.handleMessage parser session data) else none
  | .close =>
      if s.connected && s.processInput then some { s with processInput := false } else none
  | .disconnect status =>
      if s.connected then some ({ s with connected := false }.onDisconnect session status) else none
  | .others document => some { s with document := document }

/-! ## Results and the ends of a save -/

section

variable (parser : Payload → Option JsonObject)

/-- The object of a message that is a result of `.uno:Save`. -/
def savedObject (data : Payload) : Option JsonObject :=
  if equals (tokenize data ' ') 1 resultWord then
    (parseJSON parser data).filter fun object => object commandName == some unoSave
  else none

/-- Whether a result of `.uno:Save` says that it has succeeded. -/
def savedResult (data : Payload) : Option Bool :=
  (savedObject parser data).map fun object => object success == some trueText

/-- The results of the save that wsd was sent. -/
def results (s : BgSaveParent) : List Bool := s.sent.filterMap (savedResult parser)

/-- A dialog that terminates the save. -/
def isInteractive (data : Payload) : Bool :=
  equals (tokenize data ' ') 1 dialogWord &&
    match parseJSON parser (cat (tokenize data ' ') ' ' 2) with
    | none => true
    | some object => (object jsontype).any fun type => type ∉ benignTypes

/-- Whether what ends the save reports its success. -/
def endOf : Event → Option Bool
  | .message data => if isInteractive parser data then some false else savedResult parser data
  | .disconnect _ => some false
  | _ => none

/-- The first end of the save. -/
def firstEnd (es : List Event) : Option Bool := es.findSome? (endOf parser)

/-- Nothing comes after the end of the save: no result, which has to say whether the save has
succeeded, no dialog and no crash of the process. -/
def onlyEnd (s : BgSaveParent) : Event → Bool
  | .message data =>
      (endOf parser (.message data)).isNone ||
        (!s.saveCompleted && (savedObject parser data).all fun object => (object success).isSome)
  | .disconnect status => (reapZombieChild status).isNone || !s.saveCompleted
  | _ => true

/-- Once wsd has been sent a success, the save reports nothing more and leaves the modified state
alone. -/
def Settled (s : BgSaveParent) (e : Event) (s' : BgSaveParent) : Prop :=
  true ∈ s.results parser →
    s'.results parser = s.results parser ∧
      (e.ofSave = true → s'.document.modified = s.document.modified)

/-- One result for the save: a success when that is what has ended it first. -/
structure OneResult (session : ChildSession) (document : Document) (es : List Event)
    (s : BgSaveParent) : Prop where
  one : ∃ success, s.results parser = [success]
  success : true ∈ s.results parser ↔ firstEnd parser es = some true
  settled : AllSteps (step parser session) (Settled parser) (start document) es

/-- The parser reads the result that the handler makes up. -/
def ReadsFailure : Prop :=
  ∃ object, parser failedResult = some object ∧ object commandName = some unoSave ∧
    object success = some falseText

/-- What an event makes of the results and of whether the save has completed. -/
inductive Effect (s : BgSaveParent) (e : Event) (s' : BgSaveParent) : Prop
  | quiet (results : s'.results parser = s.results parser)
      (completed : s'.saveCompleted = s.saveCompleted)
      (modified : e.ofSave = true → s'.document.modified = s.document.modified)
      (only : onlyEnd parser s e = true) (ended : endOf parser e = none ∨ s.saveCompleted = true)
  | ends (success : Bool) (results : s'.results parser = s.results parser ++ [success])
      (completed : s'.saveCompleted = true) (only : onlyEnd parser s e = !s.saveCompleted)
      (ended : endOf parser e = some success)
  | mute (results : s'.results parser = s.results parser ++ [false])
      (completed : s'.saveCompleted = s.saveCompleted) (only : onlyEnd parser s e = false)

end

section

variable {parser : Payload → Option JsonObject} {session : ChildSession} {s s' : BgSaveParent}
  {e : Event} {data : Payload}

theorem parseJSON_append {before text : Payload} (h : ∀ c ∈ before, c ≠ '\x7b') :
    parseJSON parser (before ++ '\x7b' :: text) = parser ('\x7b' :: text) := by
  have hall : ∀ c ∈ before, (c != '\x7b') = true := fun c hc => by simpa using h c hc
  rw [parseJSON, (Text.span_append hall (by simp)).2]

/-- What is made up for a failed save is one result, which is not a success. -/
theorem savedResult_saveFailed (hparser : ReadsFailure parser) (session : ChildSession) :
    savedResult parser (saveFailed session) = some false := by
  obtain ⟨object, hobject, hcommand, hsuccess⟩ := hparser
  have hword : Text.IsField ' ' resultWord := by decide +kernel
  have hclient : StringVector.IsToken (clientPrefix ++ session.id) :=
    StringVector.IsToken.append_of_forall (by decide +kernel) fun c hc =>
      ⟨(session.plain c hc).1, (session.plain c hc).2.1⟩
  have hline : '\n' ∉ saveFailed session := by
    have hend : '\n' ∉ resultWord ++ ' ' :: failedResult := by decide +kernel
    have hstart : '\n' ∉ clientPrefix := by decide +kernel
    simp only [saveFailed, List.mem_append, List.mem_cons, not_or] at hend ⊢
    exact ⟨hstart, fun h => (session.plain _ h).2.1 rfl, by decide, hend⟩
  have htokens : equals (tokenize (saveFailed session) ' ') 1 resultWord = true := by
    rw [tokenize_eq_fields hline (by simp [saveFailed, clientPrefix]), saveFailed, ← List.append_assoc,
      Text.fields_append_sep hclient.1, Text.fields_append_sep hword]
    simp [equals]
  have hjson : parseJSON parser (saveFailed session) = some object := by
    have hbefore : ∀ c ∈ clientPrefix ++ (session.id ++ (' ' :: (resultWord ++ [' ']))),
        c ≠ '\x7b' := by
      have hstart : '\x7b' ∉ clientPrefix := by decide +kernel
      have hend : '\x7b' ∉ ' ' :: (resultWord ++ [' ']) := by decide +kernel
      intro c hc
      rcases List.mem_append.mp hc with hc | hc
      · exact ne_of_mem_of_not_mem hc hstart
      rcases List.mem_append.mp hc with hc | hc
      · exact (session.plain c hc).2.2
      · exact ne_of_mem_of_not_mem hc hend
    have hread := (parseJSON_append hbefore).trans hobject
    simpa only [saveFailed, failedResult, List.append_assoc, List.cons_append,
      List.nil_append] using hread
  have hfalse : (falseText == trueText) = false := by decide +kernel
  simp only [savedResult, savedObject, htokens, if_true, hjson, Option.filter, hcommand,
    beq_self_eq_true, Option.map_some, hsuccess, Option.some_beq_some, hfalse]

/-! ## What a step does -/

variable (s)

theorem results_sendFrame (data : Payload) :
    (s.sendFrame data).results parser = s.results parser ++ (savedResult parser data).toList := by
  cases h : savedResult parser data with
  | none => simp [results, sendFrame, h]
  | some success => simp [results, sendFrame, h]

@[simp] theorem modified_disableBgSave : s.disableBgSave.document.modified = s.document.modified :=
  rfl

theorem results_reportFailedSave (hparser : ReadsFailure parser) :
    (s.reportFailedSave session).results parser = s.results parser ++ [false] := by
  have h : (s.disableBgSave.sendFrame (saveFailed session)).results parser =
      s.results parser ++ (savedResult parser (saveFailed session)).toList :=
    s.disableBgSave.results_sendFrame (saveFailed session)
  rw [savedResult_saveFailed hparser] at h
  exact h

theorem results_terminateSave (hparser : ReadsFailure parser) :
    (s.terminateSave session).results parser = s.results parser ++ [false] :=
  results_reportFailedSave _ hparser

theorem handleDialog_eq (h : equals (tokenize data ' ') 1 dialogWord = true) :
    s.handleDialog parser session (tokenize data ' ') =
      if isInteractive parser data then s.terminateSave session else s := by
  simp only [handleDialog, isInteractive, h, Bool.true_and]
  cases parseJSON parser (cat (tokenize data ' ') ' ' 2) with
  | none => rfl
  | some object =>
      cases htype : object jsontype with
      | none => simp [htype]
      | some type => by_cases hmem : type ∈ benignTypes <;> simp [htype, hmem]

theorem handleResult_eq (h : equals (tokenize data ' ') 1 resultWord = true) :
    s.handleResult parser data =
      match savedObject parser data with
      | none => s
      | some object => ((object success).map s.handleSaved).getD s := by
  simp only [handleResult, savedObject, h, if_true]
  cases parseJSON parser data with
  | none => rfl
  | some object =>
      cases hcommand : object commandName with
      | none => simp [hcommand, Option.filter]
      | some command =>
          by_cases hsave : command = unoSave
          · simp only [hcommand, hsave, if_true, Option.filter, beq_self_eq_true]
            cases object success <;> rfl
          · simp [hcommand, hsave, Option.filter]

theorem equals_unique {tokens : List Payload} {index : Nat} {word word' : Payload}
    (h : equals tokens index word = true) (hne : word ≠ word') :
    equals tokens index word' = false := by
  simp only [equals, beq_iff_eq, beq_eq_false_iff_ne] at h ⊢
  rw [h]
  exact fun heq => hne (Option.some.inj heq)

theorem savedObject_of_ne (h : equals (tokenize data ' ') 1 resultWord = false) :
    savedObject parser data = none := by
  simp [savedObject, h]

theorem isInteractive_of_ne (h : equals (tokenize data ' ') 1 dialogWord = false) :
    isInteractive parser data = false := by
  simp [isInteractive, h]

/-- A message that neither is a result nor a dialog does not end the save. -/
theorem Effect.of_other (hdialog : isInteractive parser data = false)
    (hsaved : savedObject parser data = none) (hresults : s'.results parser = s.results parser)
    (hcompleted : s'.saveCompleted = s.saveCompleted)
    (hmodified : s'.document.modified = s.document.modified) :
    Effect parser s (.message data) s' := by
  have hend : endOf parser (.message data) = none := by
    simp [endOf, hdialog, savedResult, hsaved]
  exact .quiet hresults hcompleted (fun _ => hmodified) (by simp [onlyEnd, hend]) (.inl hend)

theorem handleDialog_effect (hparser : ReadsFailure parser)
    (h : equals (tokenize data ' ') 1 dialogWord = true) :
    Effect parser s (.message data) (s.handleDialog parser session (tokenize data ' ')) := by
  have hsaved : savedObject parser data = none :=
    savedObject_of_ne (equals_unique h (by decide))
  rw [handleDialog_eq s h]
  cases hdialog : isInteractive parser data with
  | false => exact .of_other s hdialog hsaved rfl rfl rfl
  | true =>
      have hend : endOf parser (.message data) = some false := by simp [endOf, hdialog]
      exact .ends false (s.results_terminateSave hparser) rfl (by simp [onlyEnd, hend, hsaved]) hend

theorem results_handleSaved (text : Payload) :
    (s.handleSaved text).results parser = s.results parser ∧
      (s.handleSaved text).saveCompleted = true := by
  unfold handleSaved
  split
  · exact ⟨rfl, rfl⟩
  · exact ⟨rfl, rfl⟩

theorem handleResult_effect (h : equals (tokenize data ' ') 1 resultWord = true) :
    Effect parser s (.message data) ((s.sendFrame data).handleResult parser data) := by
  have hdialog : isInteractive parser data = false :=
    isInteractive_of_ne (equals_unique h (by decide))
  have hsent : (s.sendFrame data).results parser =
      s.results parser ++ (savedResult parser data).toList := s.results_sendFrame data
  have hend : endOf parser (.message data) = savedResult parser data := by simp [endOf, hdialog]
  rw [handleResult_eq _ h]
  cases hsaved : savedObject parser data with
  | none =>
      simp only [savedResult, hsaved, Option.map_none, Option.toList_none, List.append_nil] at hsent
      exact .of_other s hdialog hsaved hsent rfl rfl
  | some object =>
      simp only [savedResult, hsaved, Option.map_some, Option.toList_some] at hsent hend
      cases hsuccess : object success with
      | none =>
          rw [hsuccess] at hsent
          simp only [hsuccess, Option.map_none, Option.getD_none]
          exact .mute hsent rfl (by simp [onlyEnd, hend, hsaved, hsuccess])
      | some text =>
          rw [hsuccess] at hsent hend
          have hhandled : ((s.sendFrame data).handleSaved text).results parser =
              (s.sendFrame data).results parser ∧
                ((s.sendFrame data).handleSaved text).saveCompleted = true :=
            (s.sendFrame data).results_handleSaved text
          obtain ⟨hresults, hcompleted⟩ := hhandled
          simp only [hsuccess, Option.map_some, Option.getD_some]
          exact .ends _ (hresults.trans hsent) hcompleted
            (by simp [onlyEnd, hend, hsaved, hsuccess]) hend

theorem handleMessage_effect (hparser : ReadsFailure parser) (data : Payload) :
    Effect parser s (.message data) (s.handleMessage parser session data) := by
  unfold handleMessage
  by_cases haccepted : (acceptedWords.all fun word => !equals (tokenize data ' ') 1 word) = true
  · rw [if_pos haccepted]
    simp only [acceptedWords, List.all_cons, Bool.and_eq_true, Bool.not_eq_true'] at haccepted
    exact .of_other s (isInteractive_of_ne haccepted.2.1)
      (savedObject_of_ne haccepted.2.2.2.2.2.1) rfl rfl rfl
  rw [if_neg haccepted]
  cases hdialog : equals (tokenize data ' ') 1 dialogWord with
  | true => exact handleDialog_effect s hparser hdialog
  | false =>
      cases hresult : equals (tokenize data ' ') 1 resultWord with
      | true =>
          have herror : equals (tokenize data ' ') 1 errorWord = false :=
            equals_unique hresult (by decide)
          simpa [herror] using handleResult_effect s hresult
      | false =>
          have hsaved : savedObject parser data = none := savedObject_of_ne hresult
          have hsent : (s.sendFrame data).results parser =
              s.results parser ++ (savedResult parser data).toList := s.results_sendFrame data
          simp only [savedResult, hsaved, Option.map_none, Option.toList_none,
            List.append_nil] at hsent
          simp only [Bool.false_eq_true, if_false]
          split
          · exact .of_other s (isInteractive_of_ne hdialog) hsaved hsent rfl rfl
          · exact .of_other s (isInteractive_of_ne hdialog) hsaved hsent rfl rfl

theorem onDisconnect_effect (hparser : ReadsFailure parser) (status : WaitStatus) :
    Effect parser s (.disconnect status)
      ({ s with connected := false }.onDisconnect session status) := by
  have hfailed : (({ s with connected := false } : BgSaveParent).reportFailedSave session).results
      parser = s.results parser ++ [false] :=
    results_reportFailedSave { s with connected := false } hparser
  have hend : endOf parser (.disconnect status) = some false := rfl
  unfold onDisconnect
  cases hsignal : reapZombieChild status with
  | some signal =>
      exact .ends false hfailed rfl (by simp [onlyEnd, hsignal]) hend
  | none =>
      cases hcompleted : s.saveCompleted with
      | true =>
          simp only [Option.isSome_none, Bool.false_eq_true, if_false, if_true]
          exact .quiet rfl hcompleted.symm (fun _ => rfl) (by simp [onlyEnd, hsignal]) (.inr hcompleted)
      | false =>
          simp only [Option.isSome_none, Bool.false_eq_true, if_false]
          exact .ends false hfailed rfl (by simp [onlyEnd, hsignal, hcompleted]) hend

variable {s}

theorem step_effect (hparser : ReadsFailure parser) (h : step parser session s e = some s') :
    Effect parser s e s' := by
  cases e with
  | message data =>
      simp only [step] at h
      split at h
      · cases h
        exact s.handleMessage_effect hparser data
      · cases h
  | close =>
      simp only [step] at h
      split at h
      · cases h
        exact .quiet rfl rfl (fun _ => rfl) rfl (.inl rfl)
      · cases h
  | disconnect status =>
      simp only [step] at h
      split at h
      · cases h
        exact s.onDisconnect_effect hparser status
      · cases h
  | others document =>
      cases h
      exact .quiet rfl rfl (by simp [Event.ofSave]) rfl (.inl rfl)

/-- Every result beyond that of the step which completes the save is one too many. -/
theorem Effect.length_eq (h : Effect parser s e s') :
    (s'.results parser).length + s.saveCompleted.toNat =
      (s.results parser).length + s'.saveCompleted.toNat +
        (if onlyEnd parser s e = true then 0 else 1) := by
  cases h with
  | quiet hresults hcompleted _ honly _ => simp [hresults, hcompleted, honly]
  | ends success hresults hcompleted honly _ =>
      cases hs : s.saveCompleted <;> simp [hresults, hcompleted, honly, hs]
  | mute hresults hcompleted honly =>
      simp only [hresults, hcompleted, honly, List.length_append, List.length_singleton]
      simp
      omega

/-! ## Runs -/

variable (s)

theorem connected_handleDialog (tokens : List Payload) :
    (s.handleDialog parser session tokens).connected = s.connected := by
  unfold handleDialog
  split
  · rfl
  · split
    · rfl
    · split <;> rfl

theorem connected_handleSaved (text : Payload) : (s.handleSaved text).connected = s.connected := by
  unfold handleSaved
  split <;> rfl

theorem connected_handleResult : (s.handleResult parser data).connected = s.connected := by
  unfold handleResult
  split
  · rfl
  · split
    · rfl
    · split
      · split
        · rfl
        · exact connected_handleSaved _ _
      · rfl

theorem connected_handleMessage :
    (s.handleMessage parser session data).connected = s.connected := by
  simp only [handleMessage]
  split
  · rfl
  · split
    · exact connected_handleDialog _ _
    · split
      · rw [connected_handleResult]
        split <;> rfl
      · split <;> rfl

theorem saveCompleted_onDisconnect (status : WaitStatus) :
    (s.onDisconnect session status).saveCompleted = true := by
  simp only [onDisconnect]
  generalize (if (reapZombieChild status).isSome then s.reportFailedSave session else s) = s
  split
  · assumption
  · rfl

variable {s}

/-- The save has completed when its connection ends. -/
theorem step_completed (h : step parser session s e = some s')
    (hs : s.connected = false → s.saveCompleted = true) :
    s'.connected = false → s'.saveCompleted = true := by
  intro hend
  cases e with
  | message data =>
      simp only [step] at h
      split at h
      · rename_i hopen
        cases h
        rw [connected_handleMessage] at hend
        simp [hend] at hopen
      · cases h
  | close =>
      simp only [step] at h
      split at h
      · rename_i hopen
        cases h
        simp only at hend
        simp [hend] at hopen
      · cases h
  | disconnect status =>
      simp only [step] at h
      split at h
      · cases h
        exact saveCompleted_onDisconnect _ status
      · cases h
  | others document =>
      cases h
      exact hs hend

section

variable (hparser : ReadsFailure parser) {es : List Event}

include hparser

/-- What a run adds to the results, beyond that of completing the save. -/
theorem run_length_le (hrun : run (step parser session) s es = some s') :
    (s.results parser).length + s'.saveCompleted.toNat ≤
      (s'.results parser).length + s.saveCompleted.toNat := by
  induction es generalizing s with
  | nil =>
      cases hrun
      exact le_refl _
  | cons e es ih =>
      obtain ⟨s₁, hs, hrest⟩ := (run_cons_eq_some _).mp hrun
      have hstep := (step_effect hparser hs).length_eq
      have hle := ih hrest
      omega

/-- When a run adds nothing beyond, nothing has come after the end of the save. -/
theorem onlyEnd_of_length (hrun : run (step parser session) s es = some s')
    (h : (s'.results parser).length + s.saveCompleted.toNat ≤
      (s.results parser).length + s'.saveCompleted.toNat) :
    AllSteps (step parser session) (fun s e _ => onlyEnd parser s e = true) s es := by
  induction es generalizing s with
  | nil => trivial
  | cons e es ih =>
      obtain ⟨s₁, hs, hrest⟩ := (run_cons_eq_some _).mp hrun
      have hstep := (step_effect hparser hs).length_eq
      have hle := run_length_le hparser hrest
      have honly : onlyEnd parser s e = true := by
        by_contra hnot
        rw [if_neg hnot] at hstep
        omega
      rw [if_pos honly] at hstep
      exact allSteps_cons_of_step _ hs honly (ih hrest (by omega))

/-- While nothing comes after the end of the save, its first end is what wsd is told. -/
theorem results_eq_firstEnd (hrun : run (step parser session) s es = some s')
    (h : AllSteps (step parser session) (fun s e _ => onlyEnd parser s e = true) s es) :
    s'.results parser = s.results parser ++
        (if s.saveCompleted then [] else (firstEnd parser es).toList) ∧
      s'.saveCompleted = (s.saveCompleted || (firstEnd parser es).isSome) := by
  induction es generalizing s with
  | nil =>
      cases hrun
      simp [firstEnd]
  | cons e es ih =>
      obtain ⟨s₁, hs, hrest⟩ := (run_cons_eq_some _).mp hrun
      obtain ⟨honly, hes⟩ := h.of_cons _ hs
      obtain ⟨hresults, hcompleted⟩ := ih hrest hes
      have hfirst : firstEnd parser (e :: es) = (endOf parser e).or (firstEnd parser es) := by
        rw [firstEnd, List.findSome?_cons]
        cases endOf parser e <;> rfl
      rw [hresults, hcompleted, hfirst]
      cases step_effect hparser hs with
      | quiet hsame hkept _ _ hended =>
          rw [hsame, hkept]
          rcases hended with hended | hended
          · simp [hended]
          · simp [hended]
      | ends success hsame hkept honce hended =>
          have hs₀ : s.saveCompleted = false := by simpa [honly] using honce
          simp [hsame, hkept, hended, hs₀]
      | mute _ _ hnot => simp [honly] at hnot

theorem settled_of_onlyEnd
    (h : AllSteps (step parser session) (fun s e _ => onlyEnd parser s e = true) s es)
    (hs : s.results parser ≠ [] → s.saveCompleted = true) :
    AllSteps (step parser session) (Settled parser) s es := by
  refine h.imp _ (I := fun s => s.results parser ≠ [] → s.saveCompleted = true) hs ?_
  intro s e s₁ hs hstep honly
  cases step_effect hparser hstep with
  | quiet hsame hkept hmodified _ _ => exact ⟨fun _ => ⟨hsame, hmodified⟩, by rwa [hsame, hkept]⟩
  | ends success _ hkept honce _ =>
      have hs₀ : s.saveCompleted = false := by simpa [honly] using honce
      have hnone : s.results parser = [] := by
        by_contra hne
        simp [hs hne] at hs₀
      exact ⟨fun htrue => by simp [hnone] at htrue, fun _ => hkept⟩
  | mute _ _ hnot => simp [honly] at hnot

/-- Exactly one result of a background save reaches wsd, that of its first end, and settles the
modified state if and only if nothing comes after the end of the save. -/
theorem one_result_iff (session : ChildSession) (document : Document)
    (hrun : run (step parser session) (start document) es = some s)
    (hend : s.connected = false) :
    OneResult parser session document es s ↔
      AllSteps (step parser session) (fun s e _ => onlyEnd parser s e = true)
        (start document) es := by
  have hcompleted : s.saveCompleted = true :=
    run_invariant _ (I := fun s => s.connected = false → s.saveCompleted = true)
      (fun _ _ _ => step_completed) hrun (by simp [start]) hend
  constructor
  · rintro ⟨⟨success, hone⟩, -, -⟩
    apply onlyEnd_of_length hparser hrun
    rw [hone, hcompleted]
    exact le_refl _
  · intro honly
    obtain ⟨hresults, hfirst⟩ := results_eq_firstEnd hparser hrun honly
    have hstart : (start document).results parser = [] := rfl
    rw [hstart, show (start document).saveCompleted = false from rfl] at hresults
    rw [hcompleted, show (start document).saveCompleted = false from rfl, Bool.false_or] at hfirst
    obtain ⟨success, hsome⟩ := Option.isSome_iff_exists.mp hfirst.symm
    have hone : s.results parser = [success] := by simpa [hsome] using hresults
    refine ⟨⟨success, hone⟩, ?_, settled_of_onlyEnd hparser honly (by simp [hstart])⟩
    rw [hone, hsome, List.mem_singleton, Option.some_inj, eq_comm]

end

/-- The object of a save that has succeeded. -/
def savedText : Payload :=
  '\x7b' :: "\"commandName\": \".uno:Save\", \"success\": true\x7d".toList

/-- A parser of the two results with these members. -/
def resultParser (text : Payload) : Option JsonObject :=
  if text = failedResult then
    some fun name => [(commandName, unoSave), (success, falseText)].lookup name
  else if text = savedText then
    some fun name => [(commandName, unoSave), (success, trueText)].lookup name
  else none

def firstSession : ChildSession := ⟨['0', '0', '0', '1'], by simp⟩

/-- The document whose changes a process is saving. -/
def forked : Document := { Document.load with modified := .unModifiedButSaving }

def saved : Event :=
  .message (clientPrefix ++ (firstSession.id ++ (' ' :: (resultWord ++ (' ' :: savedText)))))

theorem readsFailure_resultParser : ReadsFailure resultParser :=
  ⟨_, if_pos rfl, by decide, by decide⟩

theorem one_result_iff_saved : ∃ s,
    run (step resultParser firstSession) (start forked) [saved, .disconnect (.exited 0)] =
        some s ∧
      s.document.modified = .unModified ∧
      (OneResult resultParser firstSession forked [saved, .disconnect (.exited 0)] s ↔
        AllSteps (step resultParser firstSession) (fun s e _ => onlyEnd resultParser s e = true)
          (start forked) [saved, .disconnect (.exited 0)]) := by
  obtain ⟨s, hrun, hmodified, hend⟩ := run_reaches (step resultParser firstSession)
    (start forked) [saved, .disconnect (.exited 0)]
    (P := fun s => s.document.modified = .unModified ∧ s.connected = false) (by decide +kernel)
  exact ⟨s, hrun, hmodified, one_result_iff readsFailure_resultParser _ _ hrun hend⟩

/-- A process that crashes once it has reported its success is taken to have failed as well. -/
theorem two_results_crashed : ¬ ∀ (parser : Payload → Option JsonObject) (session : ChildSession)
    (document : Document) (es : List Event) (s : BgSaveParent), ReadsFailure parser →
    run (step parser session) (start document) es = some s → s.connected = false →
      OneResult parser session document es s := by
  intro h
  obtain ⟨s, hrun, hend, htwo⟩ := run_reaches (step resultParser firstSession) (start forked)
    [saved, .disconnect (.signaled .segv)]
    (P := fun s => s.connected = false ∧ s.results resultParser = [true, false])
    (by decide +kernel)
  obtain ⟨success, hone⟩ := (h _ _ _ _ s readsFailure_resultParser hrun hend).one
  cases htwo.symm.trans hone

end

end BgSaveParent

end Kit

end CoolOnline
