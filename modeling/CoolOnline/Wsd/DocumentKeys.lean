import CoolOnline.Common.Uri
import Mathlib.Data.List.Nodup
import Mathlib.Data.List.Sort

/-! # Document keys

`HostUtil` of `wsd/HostUtil.cpp` with the lookups of `common/RegexUtil.cpp`, and
`RequestDetails::getDocKey`: the aliases of the hosts, and the key of a document by its URI. What
Poco does with URIs and regular expressions is a parameter.
-/

namespace CoolOnline

/-- What `Poco::URI` has for the parts of a URI. -/
structure PocoURIParts (U : Type) where
  /-- The constructor, which throws for a syntax error. -/
  parse (uri : Payload) : Option U
  getScheme (uri : U) : Payload
  getHost (uri : U) : Payload
  getPort (uri : U) : Nat
  getPath (uri : U) : Payload
  getAuthority (uri : U) : Payload
  setAuthority (uri : U) (authority : Payload) : U

/-- `Poco::RegularExpression` without regard to case: whether a pattern can be compiled, and whether
it matches the whole of a subject. -/
structure PocoRegularExpression where
  isValid (pattern : Payload) : Bool
  fullMatch (pattern subject : Payload) : Bool

namespace RegexUtil

/-- `RegexUtil::getValue` for a map: the value of the subject, or else of the first key that matches
it. -/
def getValue (re : PocoRegularExpression) (map : List (Payload × Payload)) (subject : Payload) :
    Payload :=
  match map.find? fun value => value.1 == subject with
  | some it => it.2
  | none => ((map.find? fun value => re.fullMatch value.1 subject).map Prod.snd).getD []

/-- `RegexUtil::getValue` for a set. -/
def getSetValue (re : PocoRegularExpression) (set : List Payload) (subject : Payload) : Payload :=
  getValue re (set.map fun value => (value, value)) subject

end RegexUtil

/-- A group of `storage.wopi.alias_groups`. -/
structure AliasGroup where
  host : Option Payload
  aliases : List Payload

/-- `storage.wopi.alias_groups`, which may not be there. -/
structure AliasConfig where
  mode : Payload
  groups : Option (List AliasGroup)

/-- The mode of the alias groups, and the containers in the order of their keys. -/
structure HostUtil where
  mode : Payload
  aliasHosts : List (Payload × Payload)
  hostList : List Payload
  nodup : (aliasHosts.map Prod.fst).Nodup

namespace HostUtil

def isMode (h : HostUtil) (mode : Payload) : Bool := h.mode.map Char.toLower == mode

/-- `AliasHosts.emplace`. -/
def emplace (h : HostUtil) (key value : Payload) : HostUtil :=
  if hkey : key ∈ h.aliasHosts.map Prod.fst then h
  else
    { h with
      aliasHosts := h.aliasHosts.orderedInsert (fun a b => a.1 ≤ b.1) (key, value)
      nodup := by
        have hperm := (h.aliasHosts.perm_orderedInsert (fun a b => a.1 ≤ b.1) (key, value)).map
          Prod.fst
        exact hperm.nodup_iff.mpr (List.nodup_cons.mpr ⟨hkey, h.nodup⟩) }

def insertHost (h : HostUtil) (host : Payload) : HostUtil :=
  if host ∈ h.hostList then h
  else { h with hostList := h.hostList.orderedInsert (· ≤ ·) host }

section

variable {U : Type} (poco : PocoURIParts U) (re : PocoRegularExpression)

/-- The patterns of an alias; what cannot be parsed ends it. -/
def addPatterns (aliasUri realUri : U) : List Payload → HostUtil → HostUtil
  | [], h => h
  | aliasPattern :: patterns, h =>
      if re.isValid aliasPattern then
        match poco.parse (poco.getScheme aliasUri ++ "://".toList ++ aliasPattern ++ [':'] ++
            Text.decimal (poco.getPort aliasUri)) with
        | none => h
        | some aUri =>
            addPatterns aliasUri realUri patterns
              (h.emplace (poco.getAuthority aUri) (poco.getAuthority realUri))
      else addPatterns aliasUri realUri patterns h

def addAlias (realUri : U) (h : HostUtil) (aliasString : Payload) : HostUtil :=
  if aliasString = [] then h
  else
    match poco.parse aliasString with
    | none => h
    | some aliasUri =>
        addPatterns poco re aliasUri realUri
          (((poco.getHost aliasUri).splitOn '|').filter (· ≠ [])) h

/-- The groups up to the first one without a host; a host that cannot be parsed throws. -/
def addGroups : List AliasGroup → HostUtil → Option HostUtil
  | [], h => some h
  | group :: groups, h =>
      match group.host with
      | none => some h
      | some uri =>
          if uri = [] then addGroups groups h
          else
            (poco.parse uri).bind fun realUri =>
              addGroups groups (group.aliases.foldl (addAlias poco re realUri)
                (h.insertHost (poco.getHost realUri)))

/-- `HostUtil::parseAliases` at the start, without what it does for access and locking. -/
def parseAliases (conf : AliasConfig) : Option HostUtil :=
  match conf.groups with
  | none => some ⟨"compat".toList, [], [], List.nodup_nil⟩
  | some groups =>
      let h : HostUtil := ⟨conf.mode, [], [], List.nodup_nil⟩
      -- the mode has not been set to groups
      if groups ≠ [] ∧ h.isMode "first".toList = true then some h else addGroups poco re groups h

/-- The text of a URI by its parts. -/
def canonicalUri (newUri : U) : Payload :=
  if poco.getAuthority newUri = [] then poco.getPath newUri
  else
    poco.getScheme newUri ++ "://".toList ++ poco.getHost newUri ++ [':'] ++
      Text.decimal (poco.getPort newUri) ++ poco.getPath newUri

/-- `HostUtil::getNewUri`. It is allowed for the host to be a regex: in that case, the first who
connects is treated as the host, and stored. -/
def getNewUri (h : HostUtil) (uri : U) : Payload × HostUtil :=
  if h.isMode "compat".toList then (poco.getPath uri, h)
  else
    let value := RegexUtil.getValue re h.aliasHosts (poco.getAuthority uri)
    if value ≠ [] then (canonicalUri poco (poco.setAuthority uri value), h)
    else
      let val := RegexUtil.getSetValue re h.hostList (poco.getHost uri)
      (canonicalUri poco uri,
        if val ≠ poco.getHost uri then h.emplace val (poco.getHost uri) else h)

/-- `RequestDetails::getDocKey`. -/
def getDocKey (coding : PocoURI) (h : HostUtil) (uri : U) : Payload × HostUtil :=
  let (newUri, h) := h.getNewUri poco re uri
  (Uri.encode coding newUri, h)

/-- A request for a document, with the keys that have been handed out. -/
def request (coding : PocoURI) (r : List (U × Payload) × HostUtil) (uri : U) :
    List (U × Payload) × HostUtil :=
  let (docKey, h) := r.2.getDocKey poco re coding uri
  (r.1 ++ [(uri, docKey)], h)

def requests (coding : PocoURI) (h : HostUtil) (uris : List U) :
    List (U × Payload) × HostUtil :=
  uris.foldl (request poco re coding) ([], h)

end

/-! ## One key for a document -/

end HostUtil

/-- What is documented of the parts of a URI: setting the authority keeps the scheme and the path,
what comes of it depends on the scheme alone, and setting the authority that a URI has changes
nothing. -/
structure PocoURIParts.Documented {U : Type} (poco : PocoURIParts U) : Prop where
  getScheme_setAuthority (uri : U) (authority : Payload) :
    poco.getScheme (poco.setAuthority uri authority) = poco.getScheme uri
  getPath_setAuthority (uri : U) (authority : Payload) :
    poco.getPath (poco.setAuthority uri authority) = poco.getPath uri
  setAuthority_congr (uri uri' : U) (authority : Payload)
    (hscheme : poco.getScheme uri = poco.getScheme uri') :
    poco.getHost (poco.setAuthority uri authority) =
        poco.getHost (poco.setAuthority uri' authority) ∧
      poco.getPort (poco.setAuthority uri authority) =
        poco.getPort (poco.setAuthority uri' authority) ∧
      poco.getAuthority (poco.setAuthority uri authority) =
        poco.getAuthority (poco.setAuthority uri' authority)
  setAuthority_getAuthority (uri : U) :
    poco.getHost (poco.setAuthority uri (poco.getAuthority uri)) = poco.getHost uri ∧
      poco.getPort (poco.setAuthority uri (poco.getAuthority uri)) = poco.getPort uri ∧
      poco.getAuthority (poco.setAuthority uri (poco.getAuthority uri)) = poco.getAuthority uri

/-- The empty pattern matches the empty subject only. -/
structure PocoRegularExpression.Documented (re : PocoRegularExpression) : Prop where
  fullMatch_nil (subject : Payload) (h : re.fullMatch [] subject = true) : subject = []

/-- A key is the subject, or a pattern that matches it. -/
def PocoRegularExpression.Answers (re : PocoRegularExpression) (key subject : Payload) : Prop :=
  key = subject ∨ re.fullMatch key subject = true

namespace HostUtil

variable {U : Type} (poco : PocoURIParts U) (re : PocoRegularExpression) (coding : PocoURI)

/-- The authorities are aliases of one host. -/
def AliasesOfOne (h : HostUtil) (uri uri' : U) : Prop :=
  ∃ entry ∈ h.aliasHosts, ∃ entry' ∈ h.aliasHosts, entry.2 = entry'.2 ∧
    re.Answers entry.1 (poco.getAuthority uri) ∧ re.Answers entry'.1 (poco.getAuthority uri')

/-- The pattern is that of the host, or of the authority. -/
def Matches (pattern : Payload) (uri : U) : Prop :=
  re.Answers pattern (poco.getHost uri) ∨ re.Answers pattern (poco.getAuthority uri)

/-- The authorities match the same host pattern. -/
def SamePattern (h : HostUtil) (uri uri' : U) : Prop :=
  ∃ pattern ∈ h.hostList, Matches poco re pattern uri ∧ Matches poco re pattern uri'

/-- The URIs are of one document. -/
def SameDocument (h : HostUtil) (uri uri' : U) : Prop :=
  uri = uri' ∨ poco.getScheme uri = poco.getScheme uri' ∧ poco.getPath uri = poco.getPath uri' ∧
    (AliasesOfOne poco re h uri uri' ∨ SamePattern poco re h uri uri')

/-- In a sequence of requests each document has one key. -/
def OneKey (h : HostUtil) (uris : List U) : Prop :=
  ∀ p ∈ (requests poco re coding h uris).1, ∀ q ∈ (requests poco re coding h uris).1,
    SameDocument poco re h p.1 q.1 → p.2 = q.2

/-- No alias answers the authority, which is the host, and the one entry of the host list that
answers it is a pattern, and not itself a host that is asked for. -/
structure MatchesPattern (h : HostUtil) (uris : List U) (pattern : Payload) (uri : U) : Prop where
  noAlias : ∀ entry ∈ h.aliasHosts, ¬ re.Answers entry.1 (poco.getAuthority uri)
  mem : pattern ∈ h.hostList
  answers : re.Answers pattern (poco.getHost uri)
  host : poco.getAuthority uri = poco.getHost uri
  nonempty : poco.getAuthority uri ≠ []
  only : ∀ other ∈ h.hostList, re.Answers other (poco.getHost uri) → other = pattern
  noHost : ∀ other ∈ uris, poco.getHost other ≠ pattern

/-- The authority is an alias of the target, or it is the target and no alias. -/
def IsTarget (h : HostUtil) (uri : U) (target : Payload) : Prop :=
  (∃ entry ∈ h.aliasHosts, re.Answers entry.1 (poco.getAuthority uri) ∧ entry.2 = target) ∨
    (∀ entry ∈ h.aliasHosts, ¬ re.Answers entry.1 (poco.getAuthority uri)) ∧
      poco.getAuthority uri = target

/-- No entry of the host list but the host itself answers the host or the authority, the aliases
that answer the authority are of one host, and a host of the list is asked for under one authority
and its aliases. -/
structure MatchesHost (h : HostUtil) (uris : List U) (uri : U) : Prop where
  nonempty : poco.getAuthority uri ≠ []
  only : ∀ pattern ∈ h.hostList, Matches poco re pattern uri → pattern = poco.getHost uri
  aliasHost : ∀ entry ∈ h.aliasHosts, re.Answers entry.1 (poco.getAuthority uri) → entry.2 ≠ [] ∧
    ∀ other ∈ h.aliasHosts, re.Answers other.1 (poco.getAuthority uri) → other.2 = entry.2
  oneTarget : poco.getHost uri ∈ h.hostList → ∀ other ∈ uris,
    poco.getHost other = poco.getHost uri → ∀ target, IsTarget poco re h uri target →
      ∀ target', IsTarget poco re h other target' → target = target'

/-- The URI belongs to one group only, and a pattern is not asked for under a port. -/
def Unambiguous (h : HostUtil) (uris : List U) (uri : U) : Prop :=
  MatchesHost poco re h uris uri ∨ ∃ pattern, MatchesPattern poco re h uris pattern uri

/-! ## Lookups -/

end HostUtil

namespace RegexUtil

/-- The value is that of an entry that answers the subject, if there is one. -/
theorem getValue_cases (re : PocoRegularExpression) (map : List (Payload × Payload))
    (subject : Payload) :
    (∃ entry ∈ map, re.Answers entry.1 subject ∧ getValue re map subject = entry.2) ∨
      (∀ entry ∈ map, ¬ re.Answers entry.1 subject) ∧ getValue re map subject = [] := by
  rw [getValue]
  cases hsame : map.find? fun value => value.1 == subject with
  | some it =>
      have hkey : it.1 = subject := by simpa using List.find?_some hsame
      exact .inl ⟨it, List.mem_of_find?_eq_some hsame, .inl hkey, rfl⟩
  | none =>
      cases hmatch : map.find? fun value => re.fullMatch value.1 subject with
      | some it =>
          have hmatched : re.fullMatch it.1 subject = true := by
            simpa using List.find?_some hmatch
          exact .inl ⟨it, List.mem_of_find?_eq_some hmatch, .inr hmatched, rfl⟩
      | none =>
          refine .inr ⟨fun entry hentry hanswers => ?_, rfl⟩
          rcases hanswers with hkey | hmatched
          · have := List.find?_eq_none.mp hsame entry hentry
            simp [hkey] at this
          · exact List.find?_eq_none.mp hmatch entry hentry hmatched

theorem getSetValue_cases (re : PocoRegularExpression) (set : List Payload) (subject : Payload) :
    (getSetValue re set subject ∈ set ∧ re.Answers (getSetValue re set subject) subject) ∨
      (∀ value ∈ set, ¬ re.Answers value subject) ∧ getSetValue re set subject = [] := by
  rcases getValue_cases re (set.map fun value => (value, value)) subject with
    ⟨entry, hentry, hanswers, hvalue⟩ | ⟨hnone, hvalue⟩
  · obtain ⟨value, hmem, rfl⟩ := List.mem_map.mp hentry
    left
    rw [getSetValue, hvalue]
    exact ⟨hmem, hanswers⟩
  · exact .inr ⟨fun value hmem => hnone _ (List.mem_map_of_mem hmem), hvalue⟩

end RegexUtil

namespace HostUtil

theorem mem_emplace {h : HostUtil} {key value : Payload} {entry : Payload × Payload}
    (hmem : entry ∈ (h.emplace key value).aliasHosts) :
    entry ∈ h.aliasHosts ∨ entry = (key, value) := by
  rw [emplace] at hmem
  split at hmem
  · exact .inl hmem
  · exact ((List.mem_orderedInsert _).mp hmem).symm

theorem subset_emplace (h : HostUtil) (key value : Payload) :
    h.aliasHosts ⊆ (h.emplace key value).aliasHosts := by
  intro entry hentry
  rw [emplace]
  split
  · exact hentry
  · exact (List.mem_orderedInsert _).mpr (.inr hentry)

theorem mem_keys_emplace (h : HostUtil) (key value : Payload) :
    ∃ entry ∈ (h.emplace key value).aliasHosts, entry.1 = key := by
  rw [emplace]
  split
  case isTrue hkey =>
    obtain ⟨entry, hentry, hkey⟩ := List.mem_map.mp hkey
    exact ⟨entry, hentry, hkey⟩
  case isFalse => exact ⟨_, (List.mem_orderedInsert _).mpr (.inl rfl), rfl⟩

@[simp] theorem mode_emplace (h : HostUtil) (key value : Payload) :
    (h.emplace key value).mode = h.mode := by
  rw [emplace]
  split <;> rfl

@[simp] theorem hostList_emplace (h : HostUtil) (key value : Payload) :
    (h.emplace key value).hostList = h.hostList := by
  rw [emplace]
  split <;> rfl

/-! ## What is recorded -/

variable {U : Type}

/-- Since the configuration was read, hosts have been recorded under the empty key, and under the
patterns that they match. -/
structure Grown (poco : PocoURIParts U) (re : PocoRegularExpression) (h₀ : HostUtil)
    (uris : List U) (h : HostUtil) : Prop where
  mode : h.mode = h₀.mode
  hostList : h.hostList = h₀.hostList
  kept : h₀.aliasHosts ⊆ h.aliasHosts
  added : ∀ entry ∈ h.aliasHosts, entry ∈ h₀.aliasHosts ∨ entry.1 = [] ∨
    entry.2 ≠ [] ∧ ∃ uri, MatchesPattern poco re h₀ uris entry.1 uri

variable {poco : PocoURIParts U} {re : PocoRegularExpression} {h₀ h : HostUtil} {uris : List U}

theorem not_answers_nil (hre : re.Documented) {subject : Payload} (hsubject : subject ≠ []) :
    ¬ re.Answers [] subject := by
  rintro (hnil | hmatch)
  · exact hsubject hnil.symm
  · exact hsubject (hre.fullMatch_nil subject hmatch)

/-- Of what answers a URI that matches no pattern, all was configured. -/
theorem MatchesHost.configured (hre : re.Documented)
    (hgrown : Grown poco re h₀ uris h) {uri : U} (huri : uri ∈ uris)
    (hhost : MatchesHost poco re h₀ uris uri) {entry : Payload × Payload}
    (hentry : entry ∈ h.aliasHosts) (hanswers : re.Answers entry.1 (poco.getAuthority uri)) :
    entry ∈ h₀.aliasHosts := by
  rcases hgrown.added entry hentry with hmem | hnil | ⟨-, other, hpattern⟩
  · exact hmem
  · exact absurd (hnil ▸ hanswers) (not_answers_nil hre hhost.nonempty)
  · have hsame := hhost.only entry.1 hpattern.mem (.inr hanswers)
    exact absurd hsame.symm (hpattern.noHost uri huri)

/-- Of what answers a URI that matches a pattern, all was recorded under that pattern. -/
theorem MatchesPattern.recorded (hre : re.Documented)
    (hgrown : Grown poco re h₀ uris h) {uri : U} {pattern : Payload}
    (hpattern : MatchesPattern poco re h₀ uris pattern uri) {entry : Payload × Payload}
    (hentry : entry ∈ h.aliasHosts) (hanswers : re.Answers entry.1 (poco.getAuthority uri)) :
    entry.1 = pattern ∧ entry.2 ≠ [] := by
  rcases hgrown.added entry hentry with hmem | hnil | ⟨hvalue, other, hother⟩
  · exact absurd hanswers (hpattern.noAlias entry hmem)
  · exact absurd (hnil ▸ hanswers) (not_answers_nil hre hpattern.nonempty)
  · rw [hpattern.host] at hanswers
    exact ⟨hpattern.only entry.1 hother.mem hanswers, hvalue⟩

/-- A URI that matches no pattern has the value of its configured aliases. -/
theorem MatchesHost.getValue_cases (hre : re.Documented) (hgrown : Grown poco re h₀ uris h)
    {uri : U} (huri : uri ∈ uris) (hhost : MatchesHost poco re h₀ uris uri) :
    (∃ entry ∈ h₀.aliasHosts, re.Answers entry.1 (poco.getAuthority uri) ∧ entry.2 ≠ [] ∧
        RegexUtil.getValue re h.aliasHosts (poco.getAuthority uri) = entry.2) ∨
      (∀ entry ∈ h₀.aliasHosts, ¬ re.Answers entry.1 (poco.getAuthority uri)) ∧
        RegexUtil.getValue re h.aliasHosts (poco.getAuthority uri) = [] := by
  rcases RegexUtil.getValue_cases re h.aliasHosts (poco.getAuthority uri) with
    ⟨entry, hentry, hanswers, hvalue⟩ | ⟨hnone, hvalue⟩
  · have hconfigured := hhost.configured hre hgrown huri hentry hanswers
    exact .inl ⟨entry, hconfigured, hanswers, (hhost.aliasHost entry hconfigured hanswers).1,
      hvalue⟩
  · exact .inr ⟨fun entry hentry => hnone entry (hgrown.kept hentry), hvalue⟩

/-- A URI that matches a pattern has the value that was recorded under it, if there is one. -/
theorem MatchesPattern.getValue_cases (hre : re.Documented) (hgrown : Grown poco re h₀ uris h)
    {uri : U} {pattern : Payload} (hpattern : MatchesPattern poco re h₀ uris pattern uri) :
    (∃ entry ∈ h.aliasHosts, entry.1 = pattern ∧ entry.2 ≠ [] ∧
        RegexUtil.getValue re h.aliasHosts (poco.getAuthority uri) = entry.2) ∨
      (∀ entry ∈ h.aliasHosts, entry.1 ≠ pattern) ∧
        RegexUtil.getValue re h.aliasHosts (poco.getAuthority uri) = [] := by
  rcases RegexUtil.getValue_cases re h.aliasHosts (poco.getAuthority uri) with
    ⟨entry, hentry, hanswers, hvalue⟩ | ⟨hnone, hvalue⟩
  · obtain ⟨hkey, hnonempty⟩ := hpattern.recorded hre hgrown hentry hanswers
    exact .inl ⟨entry, hentry, hkey, hnonempty, hvalue⟩
  · refine .inr ⟨fun entry hentry hkey => hnone entry hentry ?_, hvalue⟩
    rw [hkey, hpattern.host]
    exact hpattern.answers

/-- The host list gives the pattern. -/
theorem MatchesPattern.getSetValue_eq {uri : U} {pattern : Payload}
    (hpattern : MatchesPattern poco re h₀ uris pattern uri) :
    RegexUtil.getSetValue re h₀.hostList (poco.getHost uri) = pattern := by
  rcases RegexUtil.getSetValue_cases re h₀.hostList (poco.getHost uri) with
    ⟨hmem, hanswers⟩ | ⟨hnone, -⟩
  · exact hpattern.only _ hmem hanswers
  · exact absurd hpattern.answers (hnone pattern hpattern.mem)

/-- The host list gives the host, or nothing. -/
theorem MatchesHost.getSetValue_eq {uri : U} (hhost : MatchesHost poco re h₀ uris uri) :
    RegexUtil.getSetValue re h₀.hostList (poco.getHost uri) = poco.getHost uri ∨
      RegexUtil.getSetValue re h₀.hostList (poco.getHost uri) = [] := by
  rcases RegexUtil.getSetValue_cases re h₀.hostList (poco.getHost uri) with
    ⟨hmem, hanswers⟩ | ⟨-, hnone⟩
  · exact .inl (hhost.only _ hmem (.inl hanswers))
  · exact .inr hnone

/-! ## Requests -/

/-- The key by the value of the aliases. -/
theorem getNewUri_fst (hmode : h.isMode "compat".toList = false) (uri : U) :
    (h.getNewUri poco re uri).1 =
      if RegexUtil.getValue re h.aliasHosts (poco.getAuthority uri) ≠ [] then
        canonicalUri poco (poco.setAuthority uri
          (RegexUtil.getValue re h.aliasHosts (poco.getAuthority uri)))
      else canonicalUri poco uri := by
  simp only [getNewUri, hmode, Bool.false_eq_true, if_false]
  split <;> rfl

/-- Nothing is recorded, or the host under what the host list gives for it. -/
theorem getNewUri_snd (hmode : h.isMode "compat".toList = false) (uri : U) :
    (h.getNewUri poco re uri).2 = h ∨
      RegexUtil.getValue re h.aliasHosts (poco.getAuthority uri) = [] ∧
        RegexUtil.getSetValue re h.hostList (poco.getHost uri) ≠ poco.getHost uri ∧
        (h.getNewUri poco re uri).2 =
          h.emplace (RegexUtil.getSetValue re h.hostList (poco.getHost uri)) (poco.getHost uri) := by
  simp only [getNewUri, hmode, Bool.false_eq_true, if_false]
  split
  · exact .inl rfl
  case isFalse hvalue =>
    split
    case isTrue hval => exact .inr ⟨not_not.mp hvalue, hval, rfl⟩
    case isFalse => exact .inl rfl

theorem canonicalUri_setAuthority (hpoco : poco.Documented) {uri uri' : U}
    (hscheme : poco.getScheme uri = poco.getScheme uri')
    (hpath : poco.getPath uri = poco.getPath uri') (authority : Payload) :
    canonicalUri poco (poco.setAuthority uri authority) =
      canonicalUri poco (poco.setAuthority uri' authority) := by
  obtain ⟨hhost, hport, hauthority⟩ := hpoco.setAuthority_congr uri uri' authority hscheme
  simp only [canonicalUri, hpoco.getScheme_setAuthority, hpoco.getPath_setAuthority, hhost, hport,
    hauthority, hscheme, hpath]

theorem canonicalUri_getAuthority (hpoco : poco.Documented) (uri : U) :
    canonicalUri poco (poco.setAuthority uri (poco.getAuthority uri)) = canonicalUri poco uri := by
  obtain ⟨hhost, hport, hauthority⟩ := hpoco.setAuthority_getAuthority uri
  simp only [canonicalUri, hpoco.getScheme_setAuthority, hpoco.getPath_setAuthority, hhost, hport,
    hauthority]

/-! ## Runs -/

theorem Grown.isMode (hgrown : Grown poco re h₀ uris h)
    (hmode : h₀.isMode "compat".toList = false) : h.isMode "compat".toList = false := by
  rw [HostUtil.isMode, hgrown.mode]
  exact hmode

/-- A URI that matches no pattern has the same value whatever has been recorded. -/
theorem MatchesHost.getValue_eq (hre : re.Documented) (hgrown : Grown poco re h₀ uris h)
    {uri : U} (huri : uri ∈ uris) (hhost : MatchesHost poco re h₀ uris uri) {h' : HostUtil}
    (hgrown' : Grown poco re h₀ uris h') :
    RegexUtil.getValue re h.aliasHosts (poco.getAuthority uri) =
      RegexUtil.getValue re h'.aliasHosts (poco.getAuthority uri) := by
  rcases hhost.getValue_cases hre hgrown huri with
      ⟨entry, hentry, hanswers, -, hvalue⟩ | ⟨hnone, hvalue⟩ <;>
    rcases hhost.getValue_cases hre hgrown' huri with
      ⟨entry', hentry', hanswers', -, hvalue'⟩ | ⟨hnone', hvalue'⟩
  · rw [hvalue, hvalue']
    exact (hhost.aliasHost entry' hentry' hanswers').2 entry hentry hanswers
  · exact absurd hanswers (hnone' entry hentry)
  · exact absurd hanswers' (hnone entry' hentry')
  · rw [hvalue, hvalue']

/-- A URI with an alias has the value of that alias. -/
theorem MatchesHost.getValue_alias (hre : re.Documented) (hgrown : Grown poco re h₀ uris h)
    {uri : U} (huri : uri ∈ uris) (hhost : MatchesHost poco re h₀ uris uri)
    {entry : Payload × Payload}
    (hentry : entry ∈ h₀.aliasHosts) (hanswers : re.Answers entry.1 (poco.getAuthority uri)) :
    RegexUtil.getValue re h.aliasHosts (poco.getAuthority uri) = entry.2 ∧ entry.2 ≠ [] := by
  rcases hhost.getValue_cases hre hgrown huri with
    ⟨entry', hentry', hanswers', -, hvalue⟩ | ⟨hnone, -⟩
  · have haliases := hhost.aliasHost entry hentry hanswers
    exact ⟨hvalue.trans (haliases.2 entry' hentry' hanswers'), haliases.1⟩
  · exact absurd hanswers (hnone entry hentry)

/-- The key of a URI that matches no pattern is that of its target. -/
theorem MatchesHost.getNewUri_eq (hpoco : poco.Documented) (hre : re.Documented)
    (hgrown : Grown poco re h₀ uris h) (hmode : h₀.isMode "compat".toList = false) {uri : U}
    (huri : uri ∈ uris) (hhost : MatchesHost poco re h₀ uris uri) :
    ∃ target, IsTarget poco re h₀ uri target ∧
      (h.getNewUri poco re uri).1 = canonicalUri poco (poco.setAuthority uri target) := by
  rcases hhost.getValue_cases hre hgrown huri with
    ⟨entry, hentry, hanswers, hnonempty, hvalue⟩ | ⟨hnone, hvalue⟩
  · refine ⟨entry.2, .inl ⟨entry, hentry, hanswers, rfl⟩, ?_⟩
    rw [getNewUri_fst (hgrown.isMode hmode), hvalue, if_pos hnonempty]
  · refine ⟨poco.getAuthority uri, .inr ⟨hnone, rfl⟩, ?_⟩
    rw [getNewUri_fst (hgrown.isMode hmode), hvalue, canonicalUri_getAuthority hpoco]
    simp

/-- A URI that matches a pattern has the value that was recorded under it. -/
theorem MatchesPattern.getValue_eq (hre : re.Documented) (hgrown : Grown poco re h₀ uris h)
    {uri : U} {pattern : Payload} (hpattern : MatchesPattern poco re h₀ uris pattern uri)
    {entry : Payload × Payload} (hentry : entry ∈ h.aliasHosts) (hkey : entry.1 = pattern) :
    RegexUtil.getValue re h.aliasHosts (poco.getAuthority uri) = entry.2 ∧ entry.2 ≠ [] := by
  rcases hpattern.getValue_cases hre hgrown with
    ⟨entry', hentry', hkey', hnonempty, hvalue⟩ | ⟨hnone, -⟩
  · have hsame : entry' = entry :=
      List.inj_on_of_nodup_map h.nodup hentry' hentry (hkey'.trans hkey.symm)
    rw [hsame] at hvalue hnonempty
    exact ⟨hvalue, hnonempty⟩
  · exact absurd hkey (hnone entry hentry)

/-- What is recorded for a URI that belongs to one group only is recorded under its pattern. -/
theorem Grown.getNewUri (hgrown : Grown poco re h₀ uris h)
    (hmode : h₀.isMode "compat".toList = false) {uri : U}
    (hunambiguous : Unambiguous poco re h₀ uris uri) :
    Grown poco re h₀ uris (h.getNewUri poco re uri).2 := by
  rcases getNewUri_snd (hgrown.isMode hmode) uri with hsame | ⟨-, hval, hstored⟩
  · rw [hsame]
    exact hgrown
  · rw [hstored]
    rw [hgrown.hostList] at hval ⊢
    refine ⟨by simp [hgrown.mode], by simp [hgrown.hostList],
      List.Subset.trans hgrown.kept (subset_emplace h _ _), fun entry hentry => ?_⟩
    cases mem_emplace hentry with
    | inl hold => exact hgrown.added entry hold
    | inr hnew =>
        rw [hnew]
        cases hunambiguous with
        | inl hhost =>
            cases hhost.getSetValue_eq with
            | inl hsame => exact absurd hsame hval
            | inr hnone => exact .inr (.inl hnone)
        | inr hmatches =>
            obtain ⟨pattern, hpattern⟩ := hmatches
            have hnonempty : poco.getHost uri ≠ [] := hpattern.host ▸ hpattern.nonempty
            rw [hpattern.getSetValue_eq]
            exact .inr (.inr ⟨hnonempty, uri, hpattern⟩)

/-- After a request for a URI that matches a pattern there is an entry under the pattern, and the
key is the one that this entry gives. -/
theorem MatchesPattern.stored (hpoco : poco.Documented) (hre : re.Documented)
    (hgrown : Grown poco re h₀ uris h) (hmode : h₀.isMode "compat".toList = false) {uri : U}
    (huri : uri ∈ uris) {pattern : Payload}
    (hpattern : MatchesPattern poco re h₀ uris pattern uri) :
    ∃ entry ∈ (h.getNewUri poco re uri).2.aliasHosts, entry.1 = pattern ∧
      (h.getNewUri poco re uri).1 = canonicalUri poco (poco.setAuthority uri entry.2) := by
  have hnoCompat := hgrown.isMode hmode
  rcases hpattern.getValue_cases hre hgrown with
    ⟨entry, hentry, hkey, hnonempty, hvalue⟩ | ⟨hnone, hvalue⟩
  · refine ⟨entry, ?_, hkey, ?_⟩
    · rcases getNewUri_snd hnoCompat uri with hsame | ⟨-, -, hstored⟩
      · rw [hsame]
        exact hentry
      · rw [hstored]
        exact subset_emplace h _ _ hentry
    · rw [getNewUri_fst hnoCompat, hvalue, if_pos hnonempty]
  · have hval : RegexUtil.getSetValue re h.hostList (poco.getHost uri) = pattern := by
      rw [hgrown.hostList]
      exact hpattern.getSetValue_eq
    have hstored : (h.getNewUri poco re uri).2 = h.emplace pattern (poco.getHost uri) := by
      simp only [HostUtil.getNewUri, hnoCompat, Bool.false_eq_true, if_false, hvalue, ne_eq,
        not_true_eq_false, hval, (hpattern.noHost uri huri).symm, not_false_eq_true, if_true]
    obtain ⟨entry, hentry, hkey⟩ := mem_keys_emplace h pattern (poco.getHost uri)
    have hnew : entry = (pattern, poco.getHost uri) :=
      (mem_emplace hentry).resolve_left fun hold => hnone entry hold hkey
    refine ⟨entry, hstored ▸ hentry, hkey, ?_⟩
    rw [hnew, ← hpattern.host, canonicalUri_getAuthority hpoco, getNewUri_fst hnoCompat, hvalue]
    simp

/-- Every key that has been handed out would be handed out again. -/
structure Answered (poco : PocoURIParts U) (re : PocoRegularExpression) (coding : PocoURI)
    (h₀ : HostUtil) (uris : List U) (r : List (U × Payload) × HostUtil) : Prop where
  grown : Grown poco re h₀ uris r.2
  mem : ∀ p ∈ r.1, p.1 ∈ uris
  key : ∀ p ∈ r.1, p.2 = (r.2.getDocKey poco re coding p.1).1
  recorded : ∀ p ∈ r.1, ∀ pattern, MatchesPattern poco re h₀ uris pattern p.1 →
    ∃ entry ∈ r.2.aliasHosts, entry.1 = pattern

theorem subset_getNewUri (hmode : h.isMode "compat".toList = false) (uri : U) :
    h.aliasHosts ⊆ (h.getNewUri poco re uri).2.aliasHosts := by
  rcases getNewUri_snd hmode uri with hsame | ⟨-, -, hstored⟩
  · rw [hsame]
    exact List.Subset.refl _
  · rw [hstored]
    exact subset_emplace h _ _

/-- The key of a URI that has been answered is not changed by another request. -/
theorem Answered.key_getNewUri (hre : re.Documented) {r : List (U × Payload) × HostUtil}
    (hr : Answered poco re coding h₀ uris r) (hmode : h₀.isMode "compat".toList = false)
    (hall : ∀ uri ∈ uris, Unambiguous poco re h₀ uris uri) {p : U × Payload} (hp : p ∈ r.1)
    {h' : HostUtil} (hgrown' : Grown poco re h₀ uris h')
    (hsubset : r.2.aliasHosts ⊆ h'.aliasHosts) :
    p.2 = (h'.getDocKey poco re coding p.1).1 := by
  have hvalue : RegexUtil.getValue re h'.aliasHosts (poco.getAuthority p.1) =
      RegexUtil.getValue re r.2.aliasHosts (poco.getAuthority p.1) := by
    cases hall p.1 (hr.mem p hp) with
    | inl hhost => exact hhost.getValue_eq hre hgrown' (hr.mem p hp) hr.grown
    | inr hmatches =>
        obtain ⟨pattern, hpattern⟩ := hmatches
        obtain ⟨entry, hentry, hkey⟩ := hr.recorded p hp pattern hpattern
        rw [(hpattern.getValue_eq hre hgrown' (hsubset hentry) hkey).1,
          (hpattern.getValue_eq hre hr.grown hentry hkey).1]
  rw [hr.key p hp]
  simp only [getDocKey, getNewUri_fst (hr.grown.isMode hmode),
    getNewUri_fst (hgrown'.isMode hmode), hvalue]

/-- The key that is handed out would be handed out again. -/
theorem Grown.key_getNewUri (hpoco : poco.Documented) (hre : re.Documented)
    (hgrown : Grown poco re h₀ uris h) (hmode : h₀.isMode "compat".toList = false)
    {uri : U} (huri : uri ∈ uris) (hunambiguous : Unambiguous poco re h₀ uris uri) :
    (h.getDocKey poco re coding uri).1 =
      ((h.getDocKey poco re coding uri).2.getDocKey poco re coding uri).1 := by
  have hgrown' := hgrown.getNewUri hmode hunambiguous
  have hsame : (h.getNewUri poco re uri).1 =
      ((h.getNewUri poco re uri).2.getNewUri poco re uri).1 := by
    cases hunambiguous with
    | inl hhost =>
        rw [getNewUri_fst (hgrown.isMode hmode), getNewUri_fst (hgrown'.isMode hmode),
          hhost.getValue_eq hre hgrown huri hgrown']
    | inr hmatches =>
        obtain ⟨pattern, hpattern⟩ := hmatches
        obtain ⟨entry, hentry, hkey, hfirst⟩ :=
          hpattern.stored hpoco hre hgrown hmode huri
        obtain ⟨hvalue, hnonempty⟩ := hpattern.getValue_eq hre hgrown' hentry hkey
        rw [hfirst, getNewUri_fst (hgrown'.isMode hmode), hvalue, if_pos hnonempty]
  simp only [getDocKey, hsame]

theorem Answered.request (hpoco : poco.Documented) (hre : re.Documented)
    {r : List (U × Payload) × HostUtil} (hr : Answered poco re coding h₀ uris r)
    (hmode : h₀.isMode "compat".toList = false)
    (hall : ∀ uri ∈ uris, Unambiguous poco re h₀ uris uri) {uri : U} (huri : uri ∈ uris) :
    Answered poco re coding h₀ uris (HostUtil.request poco re coding r uri) := by
  have hgrown' := hr.grown.getNewUri hmode (hall uri huri)
  have hsubset : r.2.aliasHosts ⊆ (r.2.getNewUri poco re uri).2.aliasHosts :=
    subset_getNewUri (hr.grown.isMode hmode) uri
  refine ⟨hgrown', fun p hp => ?mem, fun p hp => ?key, fun p hp pattern hpattern => ?recorded⟩
  case mem =>
    cases List.mem_append.mp hp with
    | inl hold => exact hr.mem p hold
    | inr hnew =>
        rw [List.mem_singleton.mp hnew]
        exact huri
  case key =>
    cases List.mem_append.mp hp with
    | inl hold => exact hr.key_getNewUri hre hmode hall hold hgrown' hsubset
    | inr hnew =>
        rw [List.mem_singleton.mp hnew]
        exact hr.grown.key_getNewUri hpoco hre hmode huri (hall uri huri)
  case recorded =>
    cases List.mem_append.mp hp with
    | inl hold =>
        obtain ⟨entry, hentry, hkey⟩ := hr.recorded p hold pattern hpattern
        exact ⟨entry, hsubset hentry, hkey⟩
    | inr hnew =>
        rw [List.mem_singleton.mp hnew] at hpattern
        obtain ⟨entry, hentry, hkey, -⟩ := hpattern.stored hpoco hre hr.grown hmode huri
        exact ⟨entry, hentry, hkey⟩

theorem answered_requests (hpoco : poco.Documented) (hre : re.Documented)
    (hmode : h₀.isMode "compat".toList = false)
    (hall : ∀ uri ∈ uris, Unambiguous poco re h₀ uris uri) :
    Answered poco re coding h₀ uris (requests poco re coding h₀ uris) := by
  have hstart : Answered poco re coding h₀ uris ([], h₀) := by
    refine ⟨⟨rfl, rfl, List.Subset.refl _, fun entry hentry => .inl hentry⟩, ?_, ?_, ?_⟩ <;> simp
  have hrun (asked : List U) (hasked : ∀ uri ∈ asked, uri ∈ uris)
      (r : List (U × Payload) × HostUtil) (hr : Answered poco re coding h₀ uris r) :
      Answered poco re coding h₀ uris (asked.foldl (HostUtil.request poco re coding) r) := by
    induction asked generalizing r with
    | nil => exact hr
    | cons uri asked ih =>
        have hstep := hr.request hpoco hre hmode hall (hasked uri List.mem_cons_self)
        exact ih (fun uri huri => hasked uri (List.mem_cons_of_mem _ huri)) _ hstep
  exact hrun uris (fun uri huri => huri) _ hstart

/-- Aliases of one host have one key. -/
theorem Answered.key_of_aliases (hpoco : poco.Documented) (hre : re.Documented)
    {r : List (U × Payload) × HostUtil} (hr : Answered poco re coding h₀ uris r)
    (hmode : h₀.isMode "compat".toList = false)
    (hall : ∀ uri ∈ uris, Unambiguous poco re h₀ uris uri) {p q : U × Payload} (hp : p ∈ r.1)
    (hq : q ∈ r.1) (hscheme : poco.getScheme p.1 = poco.getScheme q.1)
    (hpath : poco.getPath p.1 = poco.getPath q.1) (hsame : AliasesOfOne poco re h₀ p.1 q.1) :
    p.2 = q.2 := by
  obtain ⟨entry, hentry, entry', hentry', hone, hanswers, hanswers'⟩ := hsame
  -- a URI that an alias answers matches no pattern
  have halias (p : U × Payload) (hp : p ∈ r.1) (entry : Payload × Payload)
      (hentry : entry ∈ h₀.aliasHosts) (hanswers : re.Answers entry.1 (poco.getAuthority p.1)) :
      RegexUtil.getValue re r.2.aliasHosts (poco.getAuthority p.1) = entry.2 ∧ entry.2 ≠ [] := by
    cases hall p.1 (hr.mem p hp) with
    | inl hhost => exact hhost.getValue_alias hre hr.grown (hr.mem p hp) hentry hanswers
    | inr hmatches =>
        obtain ⟨pattern, hpattern⟩ := hmatches
        exact absurd hanswers (hpattern.noAlias entry hentry)
  obtain ⟨hvalue, -⟩ := halias p hp entry hentry hanswers
  obtain ⟨hvalue', hnonempty⟩ := halias q hq entry' hentry' hanswers'
  rw [hr.key p hp, hr.key q hq]
  simp only [getDocKey, getNewUri_fst (hr.grown.isMode hmode), hvalue, hvalue', if_pos hnonempty,
    hone, canonicalUri_setAuthority hpoco hscheme hpath]

/-- Hosts that match one pattern have one key. -/
theorem Answered.key_of_pattern (hpoco : poco.Documented) (hre : re.Documented)
    {r : List (U × Payload) × HostUtil} (hr : Answered poco re coding h₀ uris r)
    (hmode : h₀.isMode "compat".toList = false)
    (hall : ∀ uri ∈ uris, Unambiguous poco re h₀ uris uri) {p q : U × Payload} (hp : p ∈ r.1)
    (hq : q ∈ r.1) (hscheme : poco.getScheme p.1 = poco.getScheme q.1)
    (hpath : poco.getPath p.1 = poco.getPath q.1) (hsame : SamePattern poco re h₀ p.1 q.1) :
    p.2 = q.2 := by
  obtain ⟨pattern, hmem, hmatches, hmatches'⟩ := hsame
  -- the pattern is the host of a URI that is asked for, or the one that it matches
  have hone (p : U × Payload) (hp : p ∈ r.1) (hmatches : Matches poco re pattern p.1) :
      (poco.getHost p.1 = pattern ∧ MatchesHost poco re h₀ uris p.1) ∨
        MatchesPattern poco re h₀ uris pattern p.1 := by
    cases hall p.1 (hr.mem p hp) with
    | inl hhost => exact .inl ⟨(hhost.only pattern hmem hmatches).symm, hhost⟩
    | inr hother =>
        obtain ⟨pattern', hpattern⟩ := hother
        rw [Matches, hpattern.host, or_self] at hmatches
        rw [hpattern.only pattern hmem hmatches]
        exact .inr hpattern
  cases hone p hp hmatches with
  | inl hhost =>
      cases hone q hq hmatches' with
      | inl hhost' =>
          obtain ⟨hhost, hmatchesHost⟩ := hhost
          obtain ⟨target, htarget, hkey⟩ :=
            hmatchesHost.getNewUri_eq hpoco hre hr.grown hmode (hr.mem p hp)
          obtain ⟨target', htarget', hkey'⟩ :=
            hhost'.2.getNewUri_eq hpoco hre hr.grown hmode (hr.mem q hq)
          have hsame : target = target' :=
            hmatchesHost.oneTarget (hhost ▸ hmem) q.1 (hr.mem q hq) (hhost'.1.trans hhost.symm)
              target htarget target' htarget'
          rw [hr.key p hp, hr.key q hq]
          simp only [getDocKey, hkey, hkey', hsame, canonicalUri_setAuthority hpoco hscheme hpath]
      | inr hpattern' => exact absurd hhost.1 (hpattern'.noHost p.1 (hr.mem p hp))
  | inr hpattern =>
      cases hone q hq hmatches' with
      | inl hhost' => exact absurd hhost'.1 (hpattern.noHost q.1 (hr.mem q hq))
      | inr hpattern' =>
          obtain ⟨entry, hentry, hkey⟩ := hr.recorded p hp pattern hpattern
          obtain ⟨hvalue, hnonempty⟩ := hpattern.getValue_eq hre hr.grown hentry hkey
          obtain ⟨hvalue', -⟩ := hpattern'.getValue_eq hre hr.grown hentry hkey
          rw [hr.key p hp, hr.key q hq]
          simp only [getDocKey, getNewUri_fst (hr.grown.isMode hmode), hvalue, hvalue',
            if_pos hnonempty, canonicalUri_setAuthority hpoco hscheme hpath]

/-- Where each URI belongs to one group only, each document has one key. -/
theorem oneKey_of_unambiguous (hpoco : poco.Documented) (hre : re.Documented)
    (hmode : h.isMode "compat".toList = false)
    (hall : ∀ uri ∈ uris, Unambiguous poco re h uris uri) : OneKey poco re coding h uris := by
  have hanswered : Answered poco re coding h uris (requests poco re coding h uris) :=
    answered_requests hpoco hre hmode hall
  intro p hp q hq hsame
  rcases hsame with hsame | ⟨hscheme, hpath, haliases | hpattern⟩
  · rw [hanswered.key p hp, hanswered.key q hq, hsame]
  · exact hanswered.key_of_aliases hpoco hre hmode hall hp hq hscheme hpath haliases
  · exact hanswered.key_of_pattern hpoco hre hmode hall hp hq hscheme hpath hpattern

end HostUtil

/-! ## One pattern, two requests -/

/-- A URI of a scheme, an authority of host and port, and a path. -/
structure HierarchicalUri where
  scheme : Payload
  host : Payload
  port : Nat
  path : Payload
  not_mem_host : ':' ∉ host

namespace HierarchicalUri

def wellKnownPort (scheme : Payload) : Nat := if scheme = "https".toList then 443 else 80

/-- The host and the port of an authority. -/
def setAuthority (uri : HierarchicalUri) (authority : Payload) : HierarchicalUri where
  scheme := uri.scheme
  host := authority.takeWhile (· != ':')
  port :=
    (Text.leadingNat ((authority.dropWhile (· != ':')).drop 1)).getD (wellKnownPort uri.scheme)
  path := uri.path
  not_mem_host hmem := by simpa using List.mem_takeWhile_imp hmem

def getAuthority (uri : HierarchicalUri) : Payload :=
  if uri.port = wellKnownPort uri.scheme then uri.host
  else uri.host ++ ':' :: Text.decimal uri.port

def parse (uri : Payload) : Option HierarchicalUri :=
  (Search.cutAt "://".toList uri).map fun parts =>
    setAuthority ⟨parts.1, [], 0, parts.2.dropWhile (· != '/'), List.not_mem_nil⟩
      (parts.2.takeWhile (· != '/'))

def parts : PocoURIParts HierarchicalUri where
  parse
  getScheme := scheme
  getHost := host
  getPort := port
  getPath := path
  getAuthority := getAuthority
  setAuthority := setAuthority

theorem setAuthority_getAuthority (uri : HierarchicalUri) :
    uri.setAuthority uri.getAuthority = uri := by
  have hcolon : ∀ c ∈ uri.host, (c != ':') = true := fun c hc =>
    bne_iff_ne.mpr fun heq => uri.not_mem_host (heq ▸ hc)
  rw [getAuthority]
  split
  case isTrue hport =>
    have hhost : uri.host.takeWhile (· != ':') = uri.host := List.takeWhile_eq_self_iff.mpr hcolon
    have hrest : uri.host.dropWhile (· != ':') = [] := List.dropWhile_eq_nil_iff.mpr hcolon
    simp [setAuthority, hhost, hrest, Text.leadingNat, ← hport]
  case isFalse =>
    have hhost : (uri.host ++ ':' :: Text.decimal uri.port).takeWhile (· != ':') = uri.host := by
      simp [List.takeWhile_append_of_pos hcolon]
    have hrest : (uri.host ++ ':' :: Text.decimal uri.port).dropWhile (· != ':') =
        ':' :: Text.decimal uri.port := by
      simp [List.dropWhile_append_of_pos hcolon]
    have hnat : Text.leadingNat (Text.decimal uri.port) = some uri.port := by
      have hend : Text.NoDigit [] := by simp [Text.NoDigit]
      have hdigits := Text.leadingNat_toDigits_append uri.port hend
      rwa [List.append_nil] at hdigits
    simp [setAuthority, hhost, hrest, hnat]

theorem documented_parts : parts.Documented where
  getScheme_setAuthority _ _ := rfl
  getPath_setAuthority _ _ := rfl
  setAuthority_congr uri uri' authority hscheme := by
    have hscheme : uri.scheme = uri'.scheme := hscheme
    simp [parts, setAuthority, getAuthority, hscheme]
  setAuthority_getAuthority uri := by
    simp [parts, setAuthority_getAuthority]

end HierarchicalUri

/-- Text, of which a final `.*` stands for any text. -/
def PocoRegularExpression.wildcard : PocoRegularExpression where
  isValid _ := true
  fullMatch pattern subject :=
    if pattern.drop (pattern.length - 2) = ".*".toList then
      (pattern.take (pattern.length - 2)).isPrefixOf subject && subject ≠ []
    else pattern == subject && subject ≠ []

theorem PocoRegularExpression.documented_wildcard : wildcard.Documented where
  fullMatch_nil subject h := by
    by_contra hne
    simp [wildcard] at h

namespace HostUtil

/-- The groups of one host. -/
def oneHost (host : Payload) : AliasConfig := ⟨"groups".toList, some [⟨some host, []⟩]⟩

/-- The host is recorded without its port, and found by what it matches with the port. -/
theorem not_oneKey_wildcard :
    ∃ h, parseAliases HierarchicalUri.parts .wildcard (oneHost "https://wopi.*".toList) = some h ∧
      h.isMode "compat".toList = false ∧
      ∃ uri, HierarchicalUri.parse "https://wopi1:8443/doc".toList = some uri ∧
        ¬ OneKey HierarchicalUri.parts .wildcard .percentCoding h [uri, uri] := by
  refine ⟨_, rfl, by decide, _, rfl, fun hone => ?_⟩
  have hsame := hone _ List.mem_cons_self _ (List.mem_cons_of_mem _ List.mem_cons_self) (.inl rfl)
  exact absurd hsame (by decide)

/-- The second host of a pattern has the key of the first one. -/
theorem oneKey_wildcard :
    OneKey HierarchicalUri.parts .wildcard .percentCoding
      ⟨"groups".toList, [], ["wopi.*".toList], List.nodup_nil⟩
      [⟨"https".toList, "wopi1".toList, 443, "/doc".toList, by decide⟩,
        ⟨"https".toList, "wopi2".toList, 443, "/doc".toList, by decide⟩] := by
  refine oneKey_of_unambiguous HierarchicalUri.documented_parts
    PocoRegularExpression.documented_wildcard (by decide) fun uri huri => .inr ⟨"wopi.*".toList, ?_⟩
  have hhost : uri.getAuthority = uri.host ∧ uri.getAuthority ≠ [] ∧
      PocoRegularExpression.wildcard.fullMatch "wopi.*".toList uri.host = true := by
    simp only [List.mem_cons, List.not_mem_nil, or_false] at huri
    cases huri with
    | inl hfirst => rw [hfirst]; decide
    | inr hsecond => rw [hsecond]; decide
  refine ⟨by simp, List.mem_singleton_self _, .inr hhost.2.2, hhost.1, hhost.2.1,
    fun other hother _ => List.mem_singleton.mp hother, fun other hother => ?_⟩
  simp only [List.mem_cons, List.not_mem_nil, or_false] at hother
  cases hother with
  | inl hfirst => rw [hfirst]; decide
  | inr hsecond => rw [hsecond]; decide

end HostUtil

end CoolOnline
