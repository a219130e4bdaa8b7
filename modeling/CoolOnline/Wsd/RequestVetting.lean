import CoolOnline.Library.History

/-! # Vetting a request

`RequestVettingStation` of `wsd/RequestVettingStation.cpp` and `CheckFileInfo` of
`wsd/wopi/CheckFileInfo.cpp`: the WOPI host is asked about a document when `cool.html` is served, or
when the client's WebSocket comes, and the client gets a session or an error. What is sent to the
client about the progress, and about the certificate of the host, is not modelled.
-/

namespace CoolOnline.Vetting

/-- What `StorageBase::validate` says of the document's URI. -/
inductive StorageType
  | unsupported
  | unauthorized
  | conversion
  | fileSystem
  | wopi
deriving DecidableEq, Repr

/-- The JSON of a response: the name of the file, if there is one, and where the shared settings
are. -/
structure WopiInfo where
  baseFileName : Option (List Char)
  sharedSettingsUri : List Char
deriving DecidableEq, Repr

structure Response where
  statusCode : Nat
  /-- The body, if it is JSON. -/
  body : Option WopiInfo

inductive State
  | none
  | active
  | timedout
  | unauthorized
  | fail
  | pass
deriving DecidableEq, Repr

/-- A request that is not finished; a handshake that fails is reported before it is. -/
structure Running where
  redirectLimit : Nat
  handshakeFailed : Bool
deriving DecidableEq, Repr

structure CheckFileInfo where
  state : State
  wopiInfo : Option WopiInfo
  running : Option Running
deriving DecidableEq, Repr

/-- What the client gets at last. -/
inductive Outcome
  | session
  | error (msg : String)
deriving DecidableEq, Repr

structure Station where
  storage : StorageType
  /-- The client's WebSocket is there. -/
  ws : Bool
  checkFileInfo : Option CheckFileInfo
  /-- The installations of presets that will be reported here. -/
  installs : Nat
  outcomes : List Outcome

/-- How a request starts; the host that it goes to may be no host at all. -/
inductive Start
  | running
  | connectFails
  | throws
deriving DecidableEq, Repr

/-- What is met on the way to a session: `findOrCreateDocBroker` gives an error, or a broker that may
be unloading unrecoverably; the presets may be those of no URI. -/
structure Brokerage where
  docBroker : Except String Bool
  presetsThrow : Bool

/-- `HTTP_REDIRECTION_LIMIT`. -/
def httpRedirectionLimit : Nat := 21

def isRedirection (statusCode : Nat) : Bool :=
  statusCode = 301 || statusCode = 302 || statusCode = 307 || statusCode = 308

/-- The name of the file is there, and sane. -/
def parseResponseAndValidate (body : Option WopiInfo) : Option WopiInfo :=
  body.filter fun info => info.baseFileName.any fun name => !name.contains '/'

/-- What a response that is no redirection makes of the state. -/
def CheckFileInfo.conclude (c : CheckFileInfo) (r : Response) : CheckFileInfo :=
  if r.statusCode ≠ 200 then
    { c with
      state :=
        if r.statusCode = 401 ∨ r.statusCode = 403 ∨ r.statusCode = 404 then .unauthorized
        else .fail }
  else
    match parseResponseAndValidate r.body with
    | some info => { c with state := .pass, wopiInfo := some info }
    | none => { c with state := .fail, wopiInfo := none }

namespace Station

/-- Before the request, whichever comes first. -/
def new (storage : StorageType) : Station := ⟨storage, false, none, 0, []⟩

section

variable (s : Station)

def sendErrorAndShutdown (msg : String) : Station :=
  if s.ws then { s with outcomes := s.outcomes ++ [.error msg] } else s

def sendUnauthorizedErrorAndShutdown : Station :=
  s.sendErrorAndShutdown "error: cmd=internal kind=unauthorized"

def createClientSession (unloading : Bool) : Station :=
  if unloading then s.sendErrorAndShutdown "error: cmd=load kind=docunloading"
  else { s with outcomes := s.outcomes ++ [.session] }

/-- The result is an error where an exception leaves the station like this. -/
def launchInstallPresets (throws : Bool) : Except Station Station :=
  match s.checkFileInfo.bind CheckFileInfo.wopiInfo with
  | none => .ok s
  | some info =>
      if info.sharedSettingsUri = [] then .ok s
      else if throws then .error s
      else .ok { s with installs := s.installs + 1 }

def transferToDocBroker (b : Brokerage) : Except Station Station :=
  match b.docBroker with
  | .error msg => .ok (s.sendErrorAndShutdown msg)
  | .ok unloading =>
      (s.launchInstallPresets b.presetsThrow).map fun s =>
        if s.ws then s.createClientSession unloading else s

/-- What `checkFileInfo` has passed on to be called when it has a result. -/
def cfiContinuation (b : Brokerage) : Except Station Station :=
  match s.checkFileInfo with
  | none => .ok s
  | some c =>
      if c.state = .pass ∧ c.wopiInfo.isSome then s.transferToDocBroker b
      else .ok (if s.ws then s.sendUnauthorizedErrorAndShutdown else s)

/-- The connection fails, or its handshake does. -/
def connectFail (c : CheckFileInfo) (running : Option Running) : Station :=
  let s := { s with checkFileInfo := some { c with state := .fail, running := running } }
  if s.ws then s.sendUnauthorizedErrorAndShutdown else s

/-- `CheckFileInfo::checkFileInfo`. -/
def request (c : CheckFileInfo) (redirectLimit : Nat) : Start → Except Station Station
  | .running =>
      .ok { s with
        checkFileInfo := some { c with state := .active, running := some ⟨redirectLimit, false⟩ } }
  | .connectFails => .ok (s.connectFail c none)
  | .throws => .error { s with checkFileInfo := some c }

/-- `RequestVettingStation::checkFileInfo`. -/
def checkFileInfoOf (start : Start) : Except Station Station :=
  s.request ⟨.none, none, none⟩ httpRedirectionLimit start

/-- `handleRequest`, when `cool.html` is served. -/
def handleProactive (start : Start) : Except Station Station :=
  match s.storage with
  | .unsupported => .error s
  | .unauthorized => .ok s.sendUnauthorizedErrorAndShutdown
  | .conversion => .ok s
  | .fileSystem => .ok s
  | .wopi => s.checkFileInfoOf start

/-- A document that is not asked about. -/
def createBrokerAndSession (b : Brokerage) : Station :=
  match b.docBroker with
  | .error msg => s.sendErrorAndShutdown msg
  | .ok unloading => s.createClientSession unloading

/-- `handleRequest`, when the WebSocket has come. -/
def handleRequest (start : Start) (b : Brokerage) : Except Station Station :=
  match s.storage with
  | .unsupported => .error s
  | .unauthorized => .ok s.sendUnauthorizedErrorAndShutdown
  | .conversion => .ok (s.createBrokerAndSession b)
  | .fileSystem => .ok (s.createBrokerAndSession b)
  | .wopi =>
      match s.checkFileInfo with
      | none => s.checkFileInfoOf start
      | some c =>
          if c.state = .active then .ok s
          else if c.state = .pass ∧ c.wopiInfo.isSome then s.transferToDocBroker b
          else if c.state = .none ∨ c.state = .timedout then s.checkFileInfoOf start
          else .ok s.sendUnauthorizedErrorAndShutdown

/-- An exception is caught and logged. -/
def caught : Except Station Station → Station
  | .ok s => s
  | .error s => s

/-- An exception is told to the client, by the dispatcher of its request. -/
def dispatched : Except Station Station → Station
  | .ok s => s
  | .error s => s.sendErrorAndShutdown "error: cmd=internal kind=load"

/-- The finished handler of a request. -/
def finished (c : CheckFileInfo) (running : Running) (shutdown : Bool) (r : Response) (start : Start)
    (b : Brokerage) : Station :=
  let c := { c with running := none }
  let s := { s with checkFileInfo := some c }
  if shutdown then s
  else if isRedirection r.statusCode ∧ running.redirectLimit ≠ 0 then
    caught (s.request c (running.redirectLimit - 1) start)
  else caught ({ s with checkFileInfo := some (c.conclude r) }.cfiContinuation b)

end

inductive Event
  | proactive (start : Start)
  | webSocket (start : Start) (b : Brokerage)
  | finished (shutdown : Bool) (r : Response) (start : Start) (b : Brokerage)
  | connectFailed
  | handshakeFailed
  | presetsFinished (success : Bool)
  /-- The socket is the session's, and the station is gone. -/
  | transferred

def running (s : Station) : Option (CheckFileInfo × Running) :=
  s.checkFileInfo.bind fun c => c.running.map fun running => (c, running)

def step (s : Station) : Event → Option Station
  | .proactive start =>
      if s.ws ∨ s.checkFileInfo.isSome then none else some (caught (s.handleProactive start))
  | .webSocket start b =>
      if s.ws then none else some (dispatched ({ s with ws := true }.handleRequest start b))
  | .finished shutdown r start b =>
      s.running.map fun (c, running) => s.finished c running shutdown r start b
  | .connectFailed =>
      s.running.bind fun (c, running) =>
        if running.handshakeFailed then none else some (s.connectFail c none)
  | .handshakeFailed =>
      s.running.map fun (c, running) => s.connectFail c (some { running with handshakeFailed := true })
  | .presetsFinished success =>
      if s.installs = 0 then none
      else
        let s := { s with installs := s.installs - 1 }
        some (if success then s else s.sendErrorAndShutdown "shared config install failed")
  | .transferred => if .session ∈ s.outcomes then some { s with installs := 0 } else none

/-- There is nothing more to wait for. -/
def Final (s : Station) : Prop :=
  s.storage = .wopi → ∃ c, s.checkFileInfo = some c ∧ c.running = none

/-- A client gets one outcome, and a session of a WOPI document only after it has been vetted. -/
structure VetsOnce (s : Station) : Prop where
  once : s.ws = true → s.Final → s.outcomes.length = 1
  atMost : s.outcomes.length ≤ 1
  vetted : .session ∈ s.outcomes → s.storage = .wopi →
    ∃ c, s.checkFileInfo = some c ∧ c.state = .pass ∧ c.wopiInfo.isSome

/-- The presets cannot be installed once the host has passed the document. -/
def presetsThrow (r : Response) (b : Brokerage) : Bool :=
  r.statusCode = 200 && b.docBroker.isOk && b.presetsThrow &&
    (parseResponseAndValidate r.body).any fun info => info.sharedSettingsUri ≠ []

/-- A result is reported once, and where it can still be acted upon. -/
def reportsOnce (s : Station) : Event → Bool
  | .finished shutdown r start b =>
      s.running.all fun (_, running) =>
        !shutdown && !(running.handshakeFailed && s.ws) &&
          if isRedirection r.statusCode && running.redirectLimit ≠ 0 then start ≠ .throws
          else !(s.ws && presetsThrow r b)
  | .handshakeFailed => s.running.all fun (_, running) => !(running.handshakeFailed && s.ws)
  | .presetsFinished success => success || !s.ws
  | _ => true

/-! ## Results -/

section

variable {s s' : Station} {c : CheckFileInfo} {b : Brokerage} {r : Response} {start : Start}

theorem sendErrorAndShutdown_eq (s : Station) (msg : String) :
    ∃ l : List Outcome, s.sendErrorAndShutdown msg = { s with outcomes := s.outcomes ++ l } ∧
      (l.length = if s.ws then 1 else 0) ∧ .session ∉ l := by
  rw [sendErrorAndShutdown]
  split_ifs
  · exact ⟨[.error msg], rfl, rfl, by simp⟩
  · exact ⟨[], by rw [List.append_nil], rfl, List.not_mem_nil⟩

theorem launchInstallPresets_cases (s : Station) (throws : Bool) :
    (∃ installs, s.launchInstallPresets throws = .ok { s with installs := installs }) ∨
    s.launchInstallPresets throws = .error s ∧ throws = true ∧
      ((s.checkFileInfo.bind CheckFileInfo.wopiInfo).any fun info =>
        info.sharedSettingsUri ≠ []) = true := by
  rw [launchInstallPresets]
  split
  · exact .inl ⟨s.installs, rfl⟩
  · rename_i info hinfo
    split_ifs with hempty hthrows
    · exact .inl ⟨s.installs, rfl⟩
    · exact .inr ⟨rfl, hthrows, by simpa [hinfo] using hempty⟩
    · exact .inl ⟨s.installs + 1, rfl⟩

/-- A client that is there gets a session or an error, if the presets are those of a URI. -/
theorem transferToDocBroker_cases (s : Station) (b : Brokerage) :
    (∃ installs l, s.transferToDocBroker b =
        .ok { s with installs := installs, outcomes := s.outcomes ++ l } ∧
      l.length = if s.ws then 1 else 0) ∨
    s.transferToDocBroker b = .error s ∧ b.docBroker.isOk = true ∧ b.presetsThrow = true ∧
      ((s.checkFileInfo.bind CheckFileInfo.wopiInfo).any fun info => info.sharedSettingsUri ≠ []) := by
  have hcreate : ∀ (s : Station) (unloading : Bool), ∃ l : List Outcome,
      (if s.ws then s.createClientSession unloading else s) =
        { s with outcomes := s.outcomes ++ l } ∧ l.length = if s.ws then 1 else 0 := by
    intro s unloading
    split_ifs with hws
    · rw [createClientSession]
      split_ifs
      · obtain ⟨l, heq, hlength, -⟩ :=
          s.sendErrorAndShutdown_eq "error: cmd=load kind=docunloading"
        exact ⟨l, heq, hlength.trans (if_pos hws)⟩
      · exact ⟨[.session], rfl, rfl⟩
    · exact ⟨[], by rw [List.append_nil], rfl⟩
  rw [transferToDocBroker]
  cases hbroker : b.docBroker with
  | error msg =>
      obtain ⟨l, heq, hlength, -⟩ := s.sendErrorAndShutdown_eq msg
      exact .inl ⟨s.installs, l, congrArg _ heq, hlength⟩
  | ok unloading =>
      rcases s.launchInstallPresets_cases b.presetsThrow with ⟨installs, hlaunch⟩ | ⟨hlaunch, hthrow⟩
      · obtain ⟨l, heq, hlength⟩ := hcreate { s with installs := installs } unloading
        rw [hlaunch]
        exact .inl ⟨installs, l, congrArg Except.ok heq, hlength⟩
      · rw [hlaunch]
        exact .inr ⟨rfl, rfl, hthrow⟩

/-- A conclusion is final, and passes with a valid response only. -/
theorem conclude_spec (hnone : c.wopiInfo = none) :
    (c.conclude r).running = c.running ∧ (c.conclude r).state ≠ .active ∧
      ((c.conclude r).state = .pass ↔ (c.conclude r).wopiInfo.isSome = true) ∧
      ((c.conclude r).state = .pass → r.statusCode = 200 ∧
        parseResponseAndValidate r.body = (c.conclude r).wopiInfo) := by
  rw [CheckFileInfo.conclude]
  split_ifs with hstatus hunauthorized
  · exact ⟨rfl, nofun, ⟨nofun, by simp [hnone]⟩, nofun⟩
  · exact ⟨rfl, nofun, ⟨nofun, by simp [hnone]⟩, nofun⟩
  · cases hparse : parseResponseAndValidate r.body with
    | none => exact ⟨rfl, nofun, ⟨nofun, nofun⟩, nofun⟩
    | some info => exact ⟨rfl, nofun, ⟨fun _ => rfl, fun _ => rfl⟩, fun _ => ⟨not_not.mp hstatus, rfl⟩⟩

/-! ## What holds along a run -/

/-- What has become of the request, and what the client has got. -/
structure InfoOk (c : CheckFileInfo) (ws : Bool) (outcomes : List Outcome) : Prop where
  active : c.state = .active ↔ ∃ limit, c.running = some ⟨limit, false⟩
  failing : ∀ limit, c.running = some ⟨limit, true⟩ → c.state = .fail
  pass : c.state = .pass ↔ c.wopiInfo.isSome = true
  unanswered : c.state = .active → outcomes = []
  answered : c.state ≠ .active → ws = true → outcomes.length = 1
  session : .session ∈ outcomes → c.state = .pass

structure Vetted (s : Station) : Prop where
  absent : s.ws = false → s.outcomes = []
  direct : s.storage ≠ .wopi → s.checkFileInfo = none ∧ (s.ws = true → s.outcomes.length = 1)
  asked : s.storage = .wopi → s.ws = true → s.checkFileInfo.isSome = true
  info : ∀ c, s.checkFileInfo = some c → InfoOk c s.ws s.outcomes

theorem vetted_new (storage : StorageType) : Vetted (new storage) :=
  ⟨fun _ => rfl, fun _ => ⟨rfl, nofun⟩, fun _ => nofun, nofun⟩

/-- A document of a WOPI host is vetted when its `CheckFileInfo` is. -/
theorem vetted_of_info (hstorage : s.storage = .wopi) (hc : s.checkFileInfo = some c)
    (habsent : s.ws = false → s.outcomes = []) (hok : InfoOk c s.ws s.outcomes) : Vetted s where
  absent := habsent
  direct hne := absurd hstorage hne
  asked _ _ := hc ▸ rfl
  info c' hc' := by
    cases hc.symm.trans hc'
    exact hok

theorem ite_sendUnauthorizedErrorAndShutdown (s : Station) :
    (if s.ws then s.sendUnauthorizedErrorAndShutdown else s) = s.sendUnauthorizedErrorAndShutdown := by
  rw [sendUnauthorizedErrorAndShutdown, sendErrorAndShutdown]
  split_ifs <;> rfl

/-- A client that is there and has no outcome gets one error. -/
theorem vetted_error (hstorage : s.storage = .wopi) (hc : s.checkFileInfo = some c)
    (hout : s.outcomes = []) (hactive : c.state ≠ .active)
    (hpass : c.state = .pass ↔ c.wopiInfo.isSome = true) (hrunning : ∀ limit, c.running ≠ some ⟨limit, false⟩)
    (hfailing : ∀ limit, c.running = some ⟨limit, true⟩ → c.state = .fail) (msg : String) :
    Vetted (s.sendErrorAndShutdown msg) := by
  obtain ⟨l, heq, hlength, hsession⟩ := s.sendErrorAndShutdown_eq msg
  rw [heq, hout, List.nil_append]
  apply vetted_of_info
  · exact hstorage
  · exact hc
  · intro hws
    exact List.length_eq_zero_iff.mp (hlength.trans (if_neg (Bool.eq_false_iff.mp hws)))
  · refine ⟨⟨fun h => absurd h hactive, ?_⟩, hfailing, hpass, fun h => absurd h hactive, ?_,
      fun hmem => absurd hmem hsession⟩
    · rintro ⟨limit, hlimit⟩
      exact absurd hlimit (hrunning limit)
    · exact fun _ hws => hlength.trans (if_pos hws)

theorem vetted_connectFail (hstorage : s.storage = .wopi) (hnone : c.wopiInfo = none)
    (hout : s.outcomes = []) {running : Option Running}
    (hrunning : ∀ limit, running ≠ some ⟨limit, false⟩) : Vetted (s.connectFail c running) := by
  rw [connectFail]
  dsimp only
  have hite := ite_sendUnauthorizedErrorAndShutdown
    { s with checkFileInfo := some { c with state := .fail, running := running } }
  rw [hite]
  apply vetted_error (c := { c with state := .fail, running := running })
  · exact hstorage
  · rfl
  · exact hout
  · nofun
  · exact ⟨nofun, by simp [hnone]⟩
  · exact hrunning
  · exact fun _ _ => rfl

theorem vetted_transfer (hstorage : s.storage = .wopi) (hc : s.checkFileInfo = some c)
    (hpass : c.state = .pass) (hinfo : c.wopiInfo.isSome = true) (hrunning : c.running = none)
    (hout : s.outcomes = []) :
    (∃ s', s.transferToDocBroker b = .ok s' ∧ Vetted s') ∨
      s.transferToDocBroker b = .error s ∧ b.docBroker.isOk = true ∧ b.presetsThrow = true ∧
        (c.wopiInfo.any fun info => info.sharedSettingsUri ≠ []) = true := by
  rcases s.transferToDocBroker_cases b with ⟨installs, l, heq, hlength⟩ | ⟨heq, hok, hthrow, huri⟩
  · refine .inl ⟨_, heq, vetted_of_info hstorage hc ?_ ⟨?_, ?_, ?_, ?_, ?_, ?_⟩⟩
    · intro hws
      rw [hout, List.nil_append]
      exact List.length_eq_zero_iff.mp (hlength.trans (if_neg (Bool.eq_false_iff.mp hws)))
    · rw [hpass, hrunning]
      exact ⟨nofun, fun ⟨limit, hlimit⟩ => nomatch hlimit⟩
    · intro limit hlimit
      rw [hrunning] at hlimit
      cases hlimit
    · exact ⟨fun _ => hinfo, fun _ => hpass⟩
    · rw [hpass]
      nofun
    · intro _ hws
      rw [hout, List.nil_append]
      exact hlength.trans (if_pos hws)
    · exact fun _ => hpass
  · refine .inr ⟨heq, hok, hthrow, ?_⟩
    rw [hc] at huri
    exact huri

/-- The request starts, or the client gets an error. -/
theorem vetted_request (hstorage : s.storage = .wopi) (hnone : c.wopiInfo = none)
    (hout : s.outcomes = []) (redirectLimit : Nat) (hstart : start ≠ .throws) :
    ∃ s', s.request c redirectLimit start = .ok s' ∧ Vetted s' := by
  cases start with
  | running =>
      refine ⟨_, rfl, vetted_of_info hstorage rfl (fun _ => hout) ⟨?_, nofun, ?_, fun _ => hout, ?_, ?_⟩⟩
      · exact ⟨fun _ => ⟨redirectLimit, rfl⟩, fun _ => rfl⟩
      · exact ⟨nofun, by simp [hnone]⟩
      · exact fun hne => absurd rfl hne
      · rw [hout]
        nofun
  | connectFails => exact ⟨_, rfl, vetted_connectFail hstorage hnone hout nofun⟩
  | throws => exact absurd rfl hstart

/-- A request that runs has had no result, or the client is not there to know of it. -/
theorem Vetted.unanswered {running : Running} (hs : Vetted s) (hc : s.checkFileInfo = some c)
    (hrunning : c.running = some running) (hws : ¬ (running.handshakeFailed = true ∧ s.ws = true)) :
    s.storage = .wopi ∧ c.wopiInfo = none ∧ s.outcomes = [] := by
  have hinfo := hs.info c hc
  obtain ⟨limit, handshakeFailed⟩ := running
  refine ⟨?_, ?_, ?_⟩
  · by_contra hne
    rw [(hs.direct hne).1] at hc
    cases hc
  · have hpass : c.state ≠ .pass := by
      cases handshakeFailed with
      | false => simp [hinfo.active.mpr ⟨limit, hrunning⟩]
      | true => simp [hinfo.failing limit hrunning]
    exact Option.not_isSome_iff_eq_none.mp fun hsome => hpass (hinfo.pass.mpr hsome)
  · cases handshakeFailed with
    | false => exact hinfo.unanswered (hinfo.active.mpr ⟨limit, hrunning⟩)
    | true => exact hs.absent (Bool.eq_false_iff.mpr fun h => hws ⟨rfl, h⟩)

theorem reportsOnce_finished {running : Running} {shutdown : Bool} (hc : s.checkFileInfo = some c)
    (hrunning : c.running = some running)
    (h : s.reportsOnce (.finished shutdown r start b) = true) :
    shutdown = false ∧ ¬ (running.handshakeFailed = true ∧ s.ws = true) ∧
      (isRedirection r.statusCode = true ∧ running.redirectLimit ≠ 0 → start ≠ .throws) ∧
      (¬ (isRedirection r.statusCode = true ∧ running.redirectLimit ≠ 0) →
        ¬ (s.ws = true ∧ presetsThrow r b = true)) := by
  have hreports : (!shutdown && !(running.handshakeFailed && s.ws) &&
      if isRedirection r.statusCode && running.redirectLimit ≠ 0 then decide (start ≠ .throws)
        else !(s.ws && presetsThrow r b)) = true := by
    simpa only [reportsOnce, Station.running, hc, hrunning, Option.bind_some, Option.map_some,
      Option.all_some] using h
  obtain ⟨hbefore, hresult⟩ := Bool.and_eq_true_iff.mp hreports
  obtain ⟨hshutdown, hhandshake⟩ := Bool.and_eq_true_iff.mp hbefore
  refine ⟨by simpa using hshutdown, ?_, fun hredirect => ?_, fun hredirect => ?_⟩
  · rintro ⟨hfailed, hws⟩
    simp [hfailed, hws] at hhandshake
  · rw [if_pos (by simpa using hredirect)] at hresult
    exact of_decide_eq_true hresult
  · rw [if_neg (by simpa using hredirect)] at hresult
    rintro ⟨hws, hthrow⟩
    simp [hws, hthrow] at hresult

theorem Vetted.finished {running : Running} {shutdown : Bool} (hs : Vetted s)
    (hc : s.checkFileInfo = some c) (hrunning : c.running = some running)
    (h : s.reportsOnce (.finished shutdown r start b) = true) :
    Vetted (s.finished c running shutdown r start b) := by
  obtain ⟨hshutdown, hhandshake, hstart, hpresets⟩ := reportsOnce_finished hc hrunning h
  obtain ⟨hstorage, hnone, hout⟩ := hs.unanswered hc hrunning hhandshake
  rw [Station.finished]
  dsimp only
  rw [if_neg (by simp [hshutdown])]
  by_cases hredirect : isRedirection r.statusCode = true ∧ running.redirectLimit ≠ 0
  · rw [if_pos hredirect]
    obtain ⟨s', heq, hs'⟩ := @vetted_request { s with checkFileInfo := some { c with running := none } }
      { c with running := none } start hstorage hnone hout (running.redirectLimit - 1)
      (hstart hredirect)
    rw [heq]
    exact hs'
  · rw [if_neg hredirect]
    replace hpresets := hpresets hredirect
    obtain ⟨hdone, hactive, hpass, hvalid⟩ := @conclude_spec { c with running := none } r hnone
    generalize hconclude : CheckFileInfo.conclude { c with running := none } r = c' at *
    rw [cfiContinuation]
    dsimp only
    by_cases hpassed : c'.state = .pass ∧ c'.wopiInfo.isSome = true
    · rw [if_pos hpassed]
      obtain ⟨hstate, hinfo⟩ := hpassed
      have htransfer := @vetted_transfer { s with checkFileInfo := some c' } c' b hstorage rfl hstate
        hinfo hdone hout
      rcases htransfer with ⟨s', heq, hs'⟩ | ⟨heq, hbroker, hthrow, huri⟩
      · rw [heq]
        exact hs'
      · rw [heq]
        show Vetted { s with checkFileInfo := some c' }
        -- The client will be served when it comes.
        have habsent : s.ws = false := by
          rw [Bool.eq_false_iff]
          intro hws
          obtain ⟨hstatus, hparse⟩ := hvalid hstate
          refine hpresets ⟨hws, ?_⟩
          simp only [presetsThrow, hstatus, hbroker, hthrow, hparse, huri, decide_true, Bool.and_self]
        refine vetted_of_info hstorage rfl (fun _ => hout) ⟨⟨fun h => absurd h hactive, ?_⟩, ?_, hpass,
          fun _ => hout, fun _ hws => ?_, fun _ => hstate⟩
        · rintro ⟨limit, hlimit⟩
          rw [hdone] at hlimit
          cases hlimit
        · intro limit hlimit
          rw [hdone] at hlimit
          cases hlimit
        · exact absurd hws (by simp [habsent])
    · rw [if_neg hpassed]
      have hite := ite_sendUnauthorizedErrorAndShutdown { s with checkFileInfo := some c' }
      rw [hite]
      apply vetted_error (c := c')
      · exact hstorage
      · rfl
      · exact hout
      · exact hactive
      · exact hpass
      · exact fun limit hlimit => nomatch hdone.symm.trans hlimit
      · exact fun limit hlimit => nomatch hdone.symm.trans hlimit

/-- The client is there, and gets what there is. -/
theorem vetted_handleRequest (hws : s.ws = true) (hout : s.outcomes = [])
    (hdirect : s.storage ≠ .wopi → s.checkFileInfo = none)
    (hinfo : ∀ c, s.checkFileInfo = some c → InfoOk c false []) :
    Vetted (dispatched (s.handleRequest start b)) := by
  -- Without a WOPI host there is an outcome at once.
  have hone : ∀ l : List Outcome, s.storage ≠ .wopi → l.length = 1 →
      Vetted { s with outcomes := l } := by
    intro l hne hlength
    refine ⟨fun h => ?_, fun _ => ⟨hdirect hne, fun _ => hlength⟩, fun h => absurd h hne,
      fun c hc => nomatch (hdirect hne).symm.trans hc⟩
    rw [show s.ws = true from hws] at h
    cases h
  have hsend : ∀ msg : String, s.sendErrorAndShutdown msg = { s with outcomes := [.error msg] } := by
    intro msg
    rw [sendErrorAndShutdown, if_pos hws, hout, List.nil_append]
  have hbroker : ∃ l : List Outcome, s.createBrokerAndSession b = { s with outcomes := l } ∧
      l.length = 1 := by
    rw [createBrokerAndSession]
    split
    · exact ⟨_, hsend _, rfl⟩
    · rw [createClientSession]
      split_ifs
      · exact ⟨_, hsend _, rfl⟩
      · rw [hout]
        exact ⟨_, rfl, rfl⟩
  obtain ⟨l, hcreate, hlength⟩ := hbroker
  rw [Station.handleRequest]
  split
  · rename_i hstorage
    rw [dispatched, hsend]
    exact hone _ (by simp [hstorage]) rfl
  · rename_i hstorage
    rw [dispatched, sendUnauthorizedErrorAndShutdown, hsend]
    exact hone _ (by simp [hstorage]) rfl
  · rename_i hstorage
    rw [dispatched, hcreate]
    exact hone l (by simp [hstorage]) hlength
  · rename_i hstorage
    rw [dispatched, hcreate]
    exact hone l (by simp [hstorage]) hlength
  · rename_i hstorage
    -- A request that is started now.
    have hstart : Vetted (dispatched (s.checkFileInfoOf start)) := by
      by_cases hthrows : start = .throws
      · rw [hthrows]
        apply vetted_error (c := ⟨.none, none, none⟩)
        · exact hstorage
        · rfl
        · exact hout
        · nofun
        · exact ⟨nofun, nofun⟩
        · nofun
        · nofun
      · obtain ⟨s', heq, hs'⟩ := @vetted_request s ⟨.none, none, none⟩ start hstorage rfl hout
          httpRedirectionLimit hthrows
        rw [checkFileInfoOf, heq]
        exact hs'
    split
    · exact hstart
    · rename_i c hc
      have hok := hinfo c hc
      by_cases hactive : c.state = .active
      · rw [if_pos hactive]
        apply vetted_of_info
        · exact hstorage
        · exact hc
        · exact fun _ => hout
        · show InfoOk c s.ws s.outcomes
          rw [hws, hout]
          exact ⟨hok.active, hok.failing, hok.pass, fun _ => rfl, fun hne => absurd hactive hne,
            nofun⟩
      · rw [if_neg hactive]
        have hrunning : ∀ limit, c.running ≠ some ⟨limit, false⟩ := fun limit hlimit =>
          hactive (hok.active.mpr ⟨limit, hlimit⟩)
        -- A client that gets an error now.
        have herror : ∀ msg, Vetted (s.sendErrorAndShutdown msg) := by
          intro msg
          apply vetted_error hstorage hc hout hactive hok.pass hrunning hok.failing
        by_cases hpassed : c.state = .pass ∧ c.wopiInfo.isSome = true
        · rw [if_pos hpassed]
          have hfinished : c.running = none := by
            cases hrun : c.running with
            | none => rfl
            | some running =>
                obtain ⟨limit, handshakeFailed⟩ := running
                cases handshakeFailed with
                | false => exact absurd hrun (hrunning limit)
                | true =>
                    have hfail := hok.failing limit hrun
                    rw [hpassed.1] at hfail
                    cases hfail
          rcases vetted_transfer hstorage hc hpassed.1 hpassed.2 hfinished hout (b := b) with
            ⟨s', heq, hs'⟩ | ⟨heq, -⟩
          · rw [heq]
            exact hs'
          · rw [heq]
            exact herror _
        · rw [if_neg hpassed]
          split_ifs
          · exact hstart
          · exact herror _

/-! ## A run -/

theorem vetted_proactive (hs : Vetted s) (hws : s.ws = false) :
    Vetted (caught (s.handleProactive start)) := by
  have hout := hs.absent hws
  have hsend : ∀ msg, s.sendErrorAndShutdown msg = s := by
    intro msg
    rw [sendErrorAndShutdown, if_neg (Bool.eq_false_iff.mp hws)]
  rw [handleProactive]
  split
  · exact hs
  · rw [sendUnauthorizedErrorAndShutdown, hsend]
    exact hs
  · exact hs
  · exact hs
  · rename_i hstorage
    by_cases hthrows : start = .throws
    · rw [hthrows]
      apply vetted_of_info (c := ⟨.none, none, none⟩)
      · exact hstorage
      · rfl
      · exact fun _ => hout
      · refine ⟨⟨nofun, nofun⟩, nofun, ⟨nofun, nofun⟩, nofun, fun _ h => ?_, fun hmem => ?_⟩
        · exact absurd h (Bool.eq_false_iff.mp hws)
        · have hmem' : Outcome.session ∈ s.outcomes := hmem
          rw [hout] at hmem'
          cases hmem'
    · obtain ⟨s', heq, hs'⟩ := @vetted_request s ⟨.none, none, none⟩ start hstorage rfl hout
        httpRedirectionLimit hthrows
      rw [checkFileInfoOf, heq]
      exact hs'

theorem running_eq_some {running : Running} (h : s.running = some (c, running)) :
    s.checkFileInfo = some c ∧ c.running = some running := by
  obtain ⟨c', hc, hmap⟩ := Option.bind_eq_some_iff.mp h
  obtain ⟨running', hrunning, heq⟩ := Option.map_eq_some_iff.mp hmap
  cases heq
  exact ⟨hc, hrunning⟩

theorem Vetted.step {e : Event} (hs : Vetted s) (hstep : s.step e = some s')
    (h : s.reportsOnce e = true) : Vetted s' := by
  cases e with
  | proactive start =>
      rw [Station.step] at hstep
      split_ifs at hstep with hbegun
      cases hstep
      exact vetted_proactive hs (Bool.eq_false_iff.mpr fun hws => hbegun (.inl hws))
  | webSocket start b =>
      rw [Station.step] at hstep
      split_ifs at hstep with hws
      cases hstep
      have hout := hs.absent (Bool.eq_false_iff.mpr hws)
      apply vetted_handleRequest
      · rfl
      · exact hout
      · exact fun hne => (hs.direct hne).1
      intro c hc
      have hok := hs.info c hc
      rw [hout] at hok
      exact ⟨hok.active, hok.failing, hok.pass, hok.unanswered, nofun, hok.session⟩
  | finished shutdown r start b =>
      obtain ⟨⟨c, running⟩, hrun, rfl⟩ := Option.map_eq_some_iff.mp hstep
      obtain ⟨hc, hrunning⟩ := running_eq_some hrun
      exact hs.finished hc hrunning h
  | connectFailed =>
      obtain ⟨⟨c, running⟩, hrun, hfail⟩ := Option.bind_eq_some_iff.mp hstep
      obtain ⟨hc, hrunning⟩ := running_eq_some hrun
      dsimp only at hfail
      split_ifs at hfail with hhandshake
      cases hfail
      obtain ⟨hstorage, hnone, hout⟩ := hs.unanswered hc hrunning fun h => hhandshake h.1
      exact vetted_connectFail hstorage hnone hout nofun
  | handshakeFailed =>
      obtain ⟨⟨c, running⟩, hrun, rfl⟩ := Option.map_eq_some_iff.mp hstep
      obtain ⟨hc, hrunning⟩ := running_eq_some hrun
      have hagain : ¬ (running.handshakeFailed = true ∧ s.ws = true) := by
        rintro ⟨hfailed, hws⟩
        simp [reportsOnce, hrun, hfailed, hws] at h
      obtain ⟨hstorage, hnone, hout⟩ := hs.unanswered hc hrunning hagain
      exact vetted_connectFail hstorage hnone hout nofun
  | presetsFinished success =>
      rw [Station.step] at hstep
      have hsame : Vetted { s with installs := s.installs - 1 } :=
        ⟨hs.absent, hs.direct, hs.asked, hs.info⟩
      split_ifs at hstep with hnone hsuccess
      · cases hstep
        exact hsame
      · cases hstep
        have hws : ¬ s.ws = true := by simpa [reportsOnce, hsuccess] using h
        rw [sendErrorAndShutdown, if_neg hws]
        exact hsame
  | transferred =>
      rw [Station.step] at hstep
      split_ifs at hstep
      cases hstep
      exact ⟨hs.absent, hs.direct, hs.asked, hs.info⟩

theorem Vetted.vetsOnce (hs : Vetted s) : VetsOnce s := by
  have hlength : ∀ c, s.checkFileInfo = some c → c.state ≠ .active → s.ws = true →
      s.outcomes.length = 1 := fun c hc => (hs.info c hc).answered
  constructor
  · intro hws hfinal
    by_cases hstorage : s.storage = .wopi
    · obtain ⟨c, hc, hnone⟩ := hfinal hstorage
      apply hlength c hc _ hws
      intro hactive
      obtain ⟨limit, hlimit⟩ := (hs.info c hc).active.mp hactive
      rw [hnone] at hlimit
      cases hlimit
    · exact (hs.direct hstorage).2 hws
  · by_cases hws : s.ws = true
    · by_cases hstorage : s.storage = .wopi
      · obtain ⟨c, hc⟩ := Option.isSome_iff_exists.mp (hs.asked hstorage hws)
        by_cases hactive : c.state = .active
        · rw [(hs.info c hc).unanswered hactive]
          exact Nat.zero_le 1
        · exact Nat.le_of_eq (hlength c hc hactive hws)
      · exact Nat.le_of_eq ((hs.direct hstorage).2 hws)
    · rw [hs.absent (Bool.eq_false_iff.mpr hws)]
      exact Nat.zero_le 1
  · intro hmem hstorage
    have hws : s.ws = true := by
      by_contra hws
      rw [hs.absent (Bool.eq_false_iff.mpr hws)] at hmem
      cases hmem
    obtain ⟨c, hc⟩ := Option.isSome_iff_exists.mp (hs.asked hstorage hws)
    have hpass := (hs.info c hc).session hmem
    exact ⟨c, hc, hpass, (hs.info c hc).pass.mp hpass⟩

end

end Station

end CoolOnline.Vetting
