import CoolOnline.Common.Uri
import CoolOnline.Library.OrderedMap

/-! # Request URLs

`RequestDetails` of `wsd/RequestDetails.cpp`, which is built from a request's URL, or from the parts
of one, as `ClientRequestDispatcher` does for the URL of a document it is to load. The parts go into
a URL, and `processURI` takes them out of it.
-/

namespace CoolOnline

/-- `RequestDetails::Field` -/
inductive RequestDetails.Field
  | type | documentURI | wopiSrc | compat | sessionId | command | serial

structure RequestDetails where
  uriString : Payload
  pathSegs : List Payload
  params : OrderedMap Payload Payload
  docUriParams : OrderedMap Payload Payload
  fields : RequestDetails.Field → Option Payload

namespace RequestDetails

/-! ## Query parameters -/

/-- `std::map::emplace`: a key keeps the value that it has. -/
def emplace (result : OrderedMap Payload Payload) (key value : Payload) :
    OrderedMap Payload Payload :=
  if result.has key then result else result.set key value

def emplaceDecoded (poco : PocoURI) (result : OrderedMap Payload Payload)
    (param : Payload × Payload) : Option (OrderedMap Payload Payload) := do
  let key ← Uri.decode poco param.1
  let value ← Uri.decode poco param.2
  pure (emplace result key value)

/-- Without `ENABLE_DEBUG`, where an unencoded `WOPISrc` is only warned of. -/
def getParams (poco : PocoURI) (uri : Payload) : Option (OrderedMap Payload Payload) := do
  let params ← poco.getQueryParameters uri
  params.foldlM (emplaceDecoded poco) .empty

def getParam (params : OrderedMap Payload Payload) (name : Payload) : Payload :=
  (params.get name).getD []

/-! ## The parts of a URL -/

def pathSegments (uriString : Payload) : List Payload :=
  (uriString.splitOnP fun c => c == '/' || c == '?').filter fun segment => !segment.isEmpty

/-- The first segment is the type; `uriRes` is what follows its slash, or all when there is none. -/
def typeAndResource (uriString : Payload) : Payload × Payload :=
  let fromType := if uriString.head? = some '/' then uriString.tail else uriString
  (Search.cutAt ['/'] fromType).getD (fromType, uriString)

def ws : Payload := "/ws".toList

/-- `/ws[/<sessionId>/<command>/<serial>]` -/
def proxyTokens (uriRes : Payload) : List Payload :=
  match Search.lastAt ws uriRes with
  | some lastWS => StringVector.tokenize lastWS '/'
  | none => []

/-- `DocumentURI` is the second segment in `cool` URIs. Otherwise, it's the full URI. -/
def documentURI (poco : PocoURI) (uriString : Payload) : Option Payload :=
  if StringVector.equals (pathSegments uriString) 0 "cool".toList ||
      StringVector.equals (pathSegments uriString) 0 "wasm".toList then
    Uri.decode poco ((typeAndResource uriString).2.takeWhile fun c => c != '/' && c != '?')
  else some uriString

def fieldsOf (uriString documentURI : Payload) (params : OrderedMap Payload Payload) :
    Field → Option Payload
  | .type => some (typeAndResource uriString).1
  | .documentURI => some documentURI
  | .wopiSrc => some (getParam params "WOPISrc".toList)
  | .compat =>
      let compat := getParam params "compat".toList
      if compat = [] then none else some compat
  | .sessionId => (proxyTokens (typeAndResource uriString).2)[1]?
  | .command => (proxyTokens (typeAndResource uriString).2)[2]?
  | .serial => (proxyTokens (typeAndResource uriString).2)[3]?

def processURI (poco : PocoURI) (uriString : Payload) : Option RequestDetails := do
  let params ← getParams poco uriString
  let documentURI ← documentURI poco uriString
  let docUriParams ← getParams poco documentURI
  pure ⟨uriString, pathSegments uriString, params, docUriParams,
    fieldsOf uriString documentURI params⟩

def getField (details : RequestDetails) (field : Field) : Payload := (details.fields field).getD []

/-! ## From parts -/

def wopiSrcWithOptions (decodedWopiSrc : Payload) (options : List Payload) : Payload :=
  decodedWopiSrc ++ (if options = [] then [] else ['?']) ++ options.flatMap (· ++ ['&'])

/-- `/cool/<encoded-document-URI+options>/ws?WOPISrc=<encoded-document-URI>&compat=/ws[/<sessionId>/<command>/<serial>]` -/
def uriOfParts (poco : PocoURI) (decodedWopiSrc : Payload) (options : List Payload)
    (compat : Payload) : Payload :=
  "/cool/".toList ++ Uri.encode poco (wopiSrcWithOptions decodedWopiSrc options) ++ ws ++
    '?' :: ("WOPISrc=".toList ++ Uri.encode poco decodedWopiSrc ++ "&compat=".toList ++ ws ++ compat)

def ofParts (poco : PocoURI) (wopiSrc : Payload) (options : List Payload) (compat : Payload) :
    Option RequestDetails := do
  let decodedWopiSrc ← Uri.decode poco wopiSrc
  processURI poco (uriOfParts poco decodedWopiSrc options compat)

/-! ## What survives -/

/-- The segments of what comes behind `compat=/ws`, each behind a slash. -/
def segments (compat : Payload) : List Payload :=
  Text.fields '/' (compat.dropWhile (· != '/'))

/-- The parts come out of the URL as they went into it. -/
def Survives (poco : PocoURI) (wopiSrc : Payload) (options : List Payload) (compat : Payload) :
    Prop :=
  ∃ decodedWopiSrc details, Uri.decode poco wopiSrc = some decodedWopiSrc ∧
    ofParts poco wopiSrc options compat = some details ∧
    details.getField .wopiSrc = decodedWopiSrc ∧
    details.getField .documentURI = wopiSrcWithOptions decodedWopiSrc options ∧
    details.getField .sessionId = (segments compat)[0]?.getD [] ∧
    details.getField .command = (segments compat)[1]?.getD [] ∧
    details.getField .serial = (segments compat)[2]?.getD []

/-- Decoded once, it can be decoded again. -/
def DecodesAgain (poco : PocoURI) (pairs : List (Payload × Payload)) : Prop :=
  ∀ pair ∈ pairs, (Uri.decode poco pair.1).isSome ∧ (Uri.decode poco pair.2).isSome

/-- A URI whose query parameters can be read and can be decoded again. -/
def Readable (poco : PocoURI) (uri : Payload) : Prop :=
  ∃ pairs, poco.getQueryParameters uri = some pairs ∧ DecodesAgain poco pairs

/-- What is added to the URL is decodable, its query twice. -/
def CompatReadable (poco : PocoURI) (compat : Payload) : Prop :=
  (Uri.decode poco (PocoURI.behindHash compat)).isSome ∧
    ∃ pairs, (PocoURI.queryPairs ("compat=/ws".toList ++ PocoURI.beforeHash compat)).mapM
      (PocoURI.decodePair (Uri.decode poco)) = some pairs ∧ DecodesAgain poco pairs

/-- What is read for segments: what comes behind the last `/ws`, up to a line feed. -/
def behindLastWs (compat : Payload) : Payload :=
  (((Search.lastAt ws compat).map (·.drop ws.length)).getD compat).takeWhile (· != '\n')

/-- What is read for segments begins with the three segments of all. -/
def SegmentsKept (compat : Payload) : Prop :=
  (segments (behindLastWs compat)).take 3 = (segments compat).take 3

section Params

variable {poco : PocoURI} {params : OrderedMap Payload Payload} {pairs : List (Payload × Payload)}

theorem get_emplace_of_get {key name value value' : Payload} (h : params.get name = some value) :
    (emplace params key value').get name = some value := by
  rw [emplace]
  split
  case isTrue => exact h
  case isFalse hnew =>
    have hne : key ≠ name := by
      rintro rfl
      exact hnew (by rw [OrderedMap.has, h]; rfl)
    rw [OrderedMap.get_set_ne hne, h]

theorem emplaceDecoded_isSome (params : OrderedMap Payload Payload) (param : Payload × Payload) :
    (emplaceDecoded poco params param).isSome = true ↔
      (Uri.decode poco param.1).isSome ∧ (Uri.decode poco param.2).isSome := by
  rw [emplaceDecoded]
  cases Uri.decode poco param.1 <;> cases Uri.decode poco param.2 <;> simp

/-- All parameters are taken if all of them can be decoded again. -/
theorem foldlM_isSome (params : OrderedMap Payload Payload) :
    (pairs.foldlM (emplaceDecoded poco) params).isSome = true ↔ DecodesAgain poco pairs := by
  induction pairs generalizing params with
  | nil => simp [DecodesAgain]
  | cons pair pairs ih =>
      rw [List.foldlM_cons, DecodesAgain, List.forall_mem_cons, ← emplaceDecoded_isSome params]
      cases emplaceDecoded poco params pair with
      | none => simp
      | some params =>
          simp only [Option.bind_eq_bind, Option.bind_some, Option.isSome_some, true_and, ih params,
            DecodesAgain]

/-- What is there already is not replaced. -/
theorem get_foldlM {name value : Payload} {params' : OrderedMap Payload Payload}
    (h : params.get name = some value)
    (hfold : pairs.foldlM (emplaceDecoded poco) params = some params') :
    params'.get name = some value := by
  induction pairs generalizing params with
  | nil =>
      cases hfold
      exact h
  | cons pair pairs ih =>
      rw [List.foldlM_cons, Option.bind_eq_bind, Option.bind_eq_some_iff] at hfold
      rcases hfold with ⟨params₁, hfirst, hrest⟩
      rw [emplaceDecoded] at hfirst
      rcases Option.bind_eq_some_iff.mp hfirst with ⟨key, -, hfirst⟩
      rcases Option.bind_eq_some_iff.mp hfirst with ⟨value', -, hfirst⟩
      cases hfirst
      exact ih (get_emplace_of_get h) hrest

theorem getParams_isSome (uri : Payload) :
    (getParams poco uri).isSome = true ↔ Readable poco uri := by
  rw [getParams, Readable]
  cases poco.getQueryParameters uri with
  | none => simp
  | some pairs => simpa using foldlM_isSome OrderedMap.empty

end Params

section Parts

variable {poco : PocoURI} {decodedWopiSrc compat : Payload} {options : List Payload}

/-- The query of the URL in front of its compat. -/
def queryStart (poco : PocoURI) (decodedWopiSrc : Payload) : Payload :=
  "WOPISrc=".toList ++ Uri.encode poco decodedWopiSrc ++ "&compat=".toList ++ ws

theorem not_mem_encode (h : poco.Documented) {c : Char} (hc : c ∈ Uri.reserved) {text : Payload} :
    c ∉ Uri.encode poco text := h.not_mem_encode text c hc

theorem hash_not_mem_queryStart (h : poco.Documented) (decodedWopiSrc : Payload) :
    ∀ c ∈ queryStart poco decodedWopiSrc, (c != '#') = true := by
  intro c hc
  rw [bne_iff_ne]
  rintro rfl
  unfold queryStart at hc
  rw [List.mem_append, List.mem_append, List.mem_append] at hc
  rcases hc with ((hc | hc) | hc) | hc
  · exact absurd hc (by decide)
  · exact not_mem_encode h (by decide) hc
  · exact absurd hc (by decide)
  · exact absurd hc (by decide)

theorem queryPairs_queryStart (h : poco.Documented) (query : Payload) :
    PocoURI.queryPairs (queryStart poco decodedWopiSrc ++ query) =
      ("WOPISrc".toList, Uri.encode poco decodedWopiSrc) ::
        PocoURI.queryPairs ("compat=/ws".toList ++ query) := by
  have hsplit : queryStart poco decodedWopiSrc ++ query =
      ("WOPISrc".toList ++ '=' :: Uri.encode poco decodedWopiSrc) ++
        '&' :: ("compat=/ws".toList ++ query) := by
    have hname : "WOPISrc=".toList = "WOPISrc".toList ++ ['='] := by decide
    have hcompat : "&compat=".toList ++ ws = '&' :: "compat=/ws".toList := by decide
    unfold queryStart
    rw [List.append_assoc _ "&compat=".toList, hcompat, hname]
    simp only [List.append_assoc, List.cons_append, List.nil_append]
  have hmap : ("WOPISrc".toList ++ '=' :: Uri.encode poco decodedWopiSrc).map
      PocoURI.plusAsSpace = "WOPISrc".toList ++ '=' :: Uri.encode poco decodedWopiSrc := by
    have hplus : ∀ c ∈ Uri.encode poco decodedWopiSrc, PocoURI.plusAsSpace c = c := by
      intro c hc
      rw [PocoURI.plusAsSpace, if_neg]
      rintro rfl
      exact not_mem_encode h (by decide) hc
    rw [List.map_append, List.map_cons, List.map_congr_left hplus, List.map_id']
    rfl
  have hamp : '&' ∉ "WOPISrc".toList ++ '=' :: Uri.encode poco decodedWopiSrc := by
    rw [List.mem_append, List.mem_cons, not_or, not_or]
    exact ⟨by decide, by decide, not_mem_encode h (by decide)⟩
  rw [hsplit, PocoURI.queryPairs, PocoURI.queryParts_append hamp, hmap, List.map_cons,
    PocoURI.nameAndValue_append (by decide)]
  rfl

theorem path_uriOfParts (h : poco.Documented) (text : Payload) :
    let path := "/cool/".toList ++ Uri.encode poco text ++ ws
    '?' ∉ path ∧ '#' ∉ path ∧ (Uri.decode poco path).isSome := by
  refine ⟨?_, ?_, ?_⟩
  · simp only [List.mem_append, not_or]
    exact ⟨⟨by decide, not_mem_encode h (by decide)⟩, by decide⟩
  · simp only [List.mem_append, not_or]
    exact ⟨⟨by decide, not_mem_encode h (by decide)⟩, by decide⟩
  · rw [List.append_assoc, h.decode_append _ _ _ (h.decode_plain _ (by decide)),
      h.decode_append _ _ _ (h.decode_encode text), h.decode_plain ws (by decide)]
    rfl

/-- The encoded URI comes out of the query, and the rest with what is in the compat. -/
theorem getQueryParameters_uriOfParts (h : poco.Documented) :
    poco.getQueryParameters (uriOfParts poco decodedWopiSrc options compat) =
      if (Uri.decode poco (PocoURI.behindHash compat)).isSome then
        ((PocoURI.queryPairs ("compat=/ws".toList ++ PocoURI.beforeHash compat)).mapM
          (PocoURI.decodePair (Uri.decode poco))).map (("WOPISrc".toList, decodedWopiSrc) :: ·)
      else none := by
  rcases path_uriOfParts h (wopiSrcWithOptions decodedWopiSrc options) with ⟨hmark, hhash, hpath⟩
  have hstart := hash_not_mem_queryStart h decodedWopiSrc
  have hbefore : PocoURI.beforeHash (queryStart poco decodedWopiSrc ++ compat) =
      queryStart poco decodedWopiSrc ++ PocoURI.beforeHash compat :=
    List.takeWhile_append_of_pos hstart
  have hbehind : PocoURI.behindHash (queryStart poco decodedWopiSrc ++ compat) =
      PocoURI.behindHash compat := by
    rw [PocoURI.behindHash, List.dropWhile_append_of_pos hstart, PocoURI.behindHash]
  have hname : Uri.decode poco "WOPISrc".toList = some "WOPISrc".toList :=
    h.decode_plain _ (by decide)
  have hfirst : PocoURI.decodePair (Uri.decode poco)
      ("WOPISrc".toList, Uri.encode poco decodedWopiSrc) =
      some ("WOPISrc".toList, decodedWopiSrc) := by
    simp only [PocoURI.decodePair, hname, h.decode_encode, Option.bind_eq_bind, Option.bind_some,
      Option.pure_def]
  have huri : uriOfParts poco decodedWopiSrc options compat =
      "/cool/".toList ++ Uri.encode poco (wopiSrcWithOptions decodedWopiSrc options) ++ ws ++
        '?' :: (queryStart poco decodedWopiSrc ++ compat) := rfl
  rw [huri, h.query _ _ rfl ⟨hmark, hhash⟩, hbefore, hbehind]
  simp only [hpath, true_and]
  rw [queryPairs_queryStart h, List.mapM_cons, hfirst]
  cases (PocoURI.queryPairs ("compat=/ws".toList ++ PocoURI.beforeHash compat)).mapM
    (PocoURI.decodePair (Uri.decode poco)) <;> rfl

/-- What comes behind the type. -/
def resourceOfParts (poco : PocoURI) (decodedWopiSrc : Payload) (options : List Payload)
    (compat : Payload) : Payload :=
  Uri.encode poco (wopiSrcWithOptions decodedWopiSrc options) ++
    (ws ++ '?' :: (queryStart poco decodedWopiSrc ++ compat))

theorem uriOfParts_eq : uriOfParts poco decodedWopiSrc options compat =
    '/' :: ("cool".toList ++ '/' :: resourceOfParts poco decodedWopiSrc options compat) := by
  have hstart : "/cool/".toList = '/' :: ("cool".toList ++ ['/']) := by decide
  unfold uriOfParts resourceOfParts queryStart
  rw [hstart]
  simp only [List.append_assoc, List.cons_append, List.nil_append]

theorem typeAndResource_slash {name : Payload} (h : '/' ∉ name) (uriRes : Payload) :
    typeAndResource ('/' :: (name ++ '/' :: uriRes)) = (name, uriRes) := by
  have hfirst : Search.FirstAt ['/'] name := by
    apply Search.firstAt_of_not_occurs List.not_mem_nil
    exact fun hoccurs => h (hoccurs.subset (List.mem_singleton_self '/'))
  have hcut := Search.cutAt_of_firstAt hfirst uriRes
  rw [List.singleton_append] at hcut
  simp only [typeAndResource, List.head?_cons, if_true, List.tail_cons, hcut, Option.getD_some]

theorem pathSegments_slash {name : Payload} (hne : name ≠ [])
    (h : ∀ c ∈ name, (c == '/' || c == '?') = false) (uriRes : Payload) :
    pathSegments ('/' :: (name ++ '/' :: uriRes)) = name :: pathSegments uriRes := by
  rw [pathSegments, List.splitOnP_cons_eq_if_modifyHead, if_pos (by decide),
    List.splitOnP_append_cons _ _ (by decide), List.splitOnP_eq_singleton h]
  simp [pathSegments, hne]

theorem documentURI_uriOfParts (h : poco.Documented) :
    documentURI poco (uriOfParts poco decodedWopiSrc options compat) =
      some (wopiSrcWithOptions decodedWopiSrc options) := by
  have hcool : StringVector.equals
      ("cool".toList :: pathSegments (resourceOfParts poco decodedWopiSrc options compat)) 0
      "cool".toList = true := by
    simp [StringVector.equals]
  have hencoded : ∀ c ∈ Uri.encode poco (wopiSrcWithOptions decodedWopiSrc options),
      (c != '/' && c != '?') = true := by
    intro c hc
    rw [Bool.and_eq_true, bne_iff_ne, bne_iff_ne]
    constructor
    · rintro rfl
      exact not_mem_encode h (by decide) hc
    · rintro rfl
      exact not_mem_encode h (by decide) hc
  have hws : ws = '/' :: "ws".toList := by decide
  rw [documentURI, uriOfParts_eq, pathSegments_slash (by decide) (by simp), hcool,
    Bool.true_or, if_pos rfl, typeAndResource_slash (by decide)]
  simp only [resourceOfParts]
  rw [List.takeWhile_append_of_pos hencoded, hws, List.cons_append,
    List.takeWhile_cons_of_neg (by decide), List.append_nil, h.decode_encode]

/-- In `/ws` and what follows it, the last `/ws` is that one or one behind it. -/
theorem lastAt_ws (compat : Payload) :
    Search.lastAt ws (ws ++ compat) = some ((Search.lastAt ws compat).getD (ws ++ compat)) := by
  have hws : ws = ['/', 'w', 's'] := by decide
  have hw : ¬ ['/', 'w', 's'] <+: 'w' :: 's' :: compat := by simp
  have hs : ¬ ['/', 'w', 's'] <+: 's' :: compat := by simp
  rw [hws]
  simp only [List.cons_append, List.nil_append, Search.lastAt]
  rw [if_neg hw, if_neg hs, if_pos (by simp), Option.or_none, Option.or_none]
  cases Search.lastAt ['/', 'w', 's'] compat <;> rfl

/-- The tokens of the last `/ws` are its `ws` and the segments behind it. -/
theorem tokenize_ws (behind : Payload) :
    StringVector.tokenize (ws ++ behind) '/' =
      ("ws".toList ++ (behind.takeWhile (· != '\n')).takeWhile (· != '/')) ::
        segments (behind.takeWhile (· != '\n')) := by
  have hws : ws = '/' :: "ws".toList := by decide
  have hline : ∀ c ∈ ws, (c != '\n') = true := List.all_eq_true.mp (by decide)
  rw [StringVector.tokenize, if_neg (by rw [hws]; simp), List.takeWhile_append_of_pos hline]
  generalize behind.takeWhile (· != '\n') = text
  have hname : Text.IsField '/' ("ws".toList ++ text.takeWhile (· != '/')) := by
    constructor
    · simp
    · rw [List.mem_append, not_or]
      refine ⟨by decide, fun hmem => ?_⟩
      simpa using List.mem_takeWhile_imp hmem
  have hsplit : ws ++ text =
      '/' :: (("ws".toList ++ text.takeWhile (· != '/')) ++ text.dropWhile (· != '/')) := by
    rw [List.append_assoc, List.takeWhile_append_dropWhile, hws, List.cons_append]
  rw [hsplit, Text.fields_sep_cons, segments]
  cases hrest : text.dropWhile (· != '/') with
  | nil => rw [List.append_nil, Text.fields_of_isField hname, Text.fields_nil]
  | cons c rest =>
      have hc : c = '/' := by
        have hhead := List.head?_dropWhile_not (· != '/') text
        rw [hrest] at hhead
        simpa using hhead
      rw [hc, Text.fields_append_sep hname, Text.fields_sep_cons]

theorem proxyTokens_uriOfParts (poco : PocoURI) :
    ∃ name, proxyTokens (resourceOfParts poco decodedWopiSrc options compat) =
      name :: segments (behindLastWs compat) := by
  have hlast : Search.lastAt ws (resourceOfParts poco decodedWopiSrc options compat) =
      some ((Search.lastAt ws compat).getD (ws ++ compat)) := by
    have hsplit : resourceOfParts poco decodedWopiSrc options compat =
        (Uri.encode poco (wopiSrcWithOptions decodedWopiSrc options) ++ (ws ++
          '?' :: ("WOPISrc=".toList ++ Uri.encode poco decodedWopiSrc ++ "&compat=".toList))) ++
          (ws ++ compat) := by
      unfold resourceOfParts queryStart
      simp only [List.append_assoc, List.cons_append]
    rw [hsplit]
    exact Search.lastAt_append (lastAt_ws compat) _
  have hbehind : ∃ behind, (Search.lastAt ws compat).getD (ws ++ compat) = ws ++ behind ∧
      behindLastWs compat = behind.takeWhile (· != '\n') := by
    rw [behindLastWs]
    cases hcompat : Search.lastAt ws compat with
    | none => exact ⟨compat, rfl, rfl⟩
    | some lastWS =>
        rcases Search.lastAt_eq_some hcompat with ⟨behind, rfl⟩
        refine ⟨behind, rfl, ?_⟩
        rw [Option.map_some, Option.getD_some, List.drop_left]
  rcases hbehind with ⟨behind, heq, hread⟩
  apply Exists.intro
  simp only [proxyTokens, hlast, heq, tokenize_ws]
  rw [hread]

/-- The URL can be read if the URI can be decoded once more. -/
theorem readable_uriOfParts (h : poco.Documented) :
    Readable poco (uriOfParts poco decodedWopiSrc options compat) ↔
      (Uri.decode poco decodedWopiSrc).isSome ∧ CompatReadable poco compat := by
  have hname : Uri.decode poco "WOPISrc".toList = some "WOPISrc".toList :=
    h.decode_plain _ (by decide)
  rw [Readable, CompatReadable, getQueryParameters_uriOfParts h]
  by_cases hbehind : (Uri.decode poco (PocoURI.behindHash compat)).isSome = true
  case neg => simp [hbehind]
  case pos =>
    simp only [hbehind, if_true, Option.map_eq_some_iff, true_and]
    constructor
    · rintro ⟨pairs, ⟨rest, hrest, rfl⟩, hagain⟩
      rw [DecodesAgain, List.forall_mem_cons] at hagain
      exact ⟨hagain.1.2, rest, hrest, hagain.2⟩
    · rintro ⟨hdecoded, rest, hrest, hagain⟩
      refine ⟨_, ⟨rest, hrest, rfl⟩, ?_⟩
      rw [DecodesAgain, List.forall_mem_cons]
      exact ⟨⟨by rw [hname]; rfl, hdecoded⟩, hagain⟩

/-- The field `WOPISrc` is decoded once more. -/
theorem getParam_uriOfParts (h : poco.Documented) {params : OrderedMap Payload Payload}
    (hparams : getParams poco (uriOfParts poco decodedWopiSrc options compat) = some params) :
    Uri.decode poco decodedWopiSrc = some (getParam params "WOPISrc".toList) := by
  have hname : Uri.decode poco "WOPISrc".toList = some "WOPISrc".toList :=
    h.decode_plain _ (by decide)
  rw [getParams, getQueryParameters_uriOfParts h, Option.bind_eq_bind,
    Option.bind_eq_some_iff] at hparams
  rcases hparams with ⟨pairs, hpairs, hfold⟩
  split at hpairs
  case isFalse => cases hpairs
  case isTrue =>
    rcases Option.map_eq_some_iff.mp hpairs with ⟨rest, -, rfl⟩
    rw [List.foldlM_cons, Option.bind_eq_bind, Option.bind_eq_some_iff] at hfold
    rcases hfold with ⟨params₁, hfirst, hrest⟩
    rw [emplaceDecoded] at hfirst
    simp only [hname, Option.bind_eq_bind, Option.bind_some] at hfirst
    rcases Option.bind_eq_some_iff.mp hfirst with ⟨value, hvalue, hfirst⟩
    cases hfirst
    have hget : (emplace .empty "WOPISrc".toList value).get "WOPISrc".toList = some value := by
      rw [emplace, if_neg (by decide), OrderedMap.get_set, if_pos rfl]
    rw [getParam, get_foldlM hget hrest, hvalue, Option.getD_some]

/-- What is built from parts, if it is. -/
theorem ofParts_eq_some (h : poco.Documented) {wopiSrc : Payload} {details : RequestDetails}
    (hdecoded : Uri.decode poco wopiSrc = some decodedWopiSrc) :
    ofParts poco wopiSrc options compat = some details ↔
      ∃ params docUriParams,
        getParams poco (uriOfParts poco decodedWopiSrc options compat) = some params ∧
        getParams poco (wopiSrcWithOptions decodedWopiSrc options) = some docUriParams ∧
        details = ⟨uriOfParts poco decodedWopiSrc options compat,
          pathSegments (uriOfParts poco decodedWopiSrc options compat), params, docUriParams,
          fieldsOf (uriOfParts poco decodedWopiSrc options compat)
            (wopiSrcWithOptions decodedWopiSrc options) params⟩ := by
  rw [ofParts, hdecoded, Option.bind_eq_bind, Option.bind_some, processURI, Option.bind_eq_bind,
    documentURI_uriOfParts h]
  simp only [Option.bind_eq_bind, Option.bind_some, Option.bind_eq_some_iff, Option.pure_def,
    Option.some.injEq]
  constructor
  · rintro ⟨params, hparams, docUriParams, hdoc, rfl⟩
    exact ⟨params, docUriParams, hparams, hdoc, rfl⟩
  · rintro ⟨params, docUriParams, hparams, hdoc, rfl⟩
    exact ⟨params, hparams, docUriParams, hdoc, rfl⟩

/-- The segments are read behind the last `/ws`. -/
theorem fieldsOf_uriOfParts (documentURI : Payload) (params : OrderedMap Payload Payload) :
    let fields := fieldsOf (uriOfParts poco decodedWopiSrc options compat) documentURI params
    fields .sessionId = (segments (behindLastWs compat))[0]? ∧
      fields .command = (segments (behindLastWs compat))[1]? ∧
      fields .serial = (segments (behindLastWs compat))[2]? := by
  rcases proxyTokens_uriOfParts poco with ⟨name, htokens⟩
  simp only [fieldsOf]
  rw [uriOfParts_eq, typeAndResource_slash (by decide), htokens]
  exact ⟨rfl, rfl, rfl⟩

end Parts

/-- Nothing is lost when what is missing counts as empty, if no segment is. -/
theorem take_eq_iff {l l' : List Payload} (hl : ∀ t ∈ l, t ≠ []) (hl' : ∀ t ∈ l', t ≠ []) (n : Nat) :
    l.take n = l'.take n ↔ ∀ k < n, l[k]?.getD [] = l'[k]?.getD [] := by
  constructor
  · intro h k hk
    have hget := congrArg (·[k]?) h
    simp only [List.getElem?_take, hk, if_true] at hget
    rw [hget]
  · intro h
    apply List.ext_getElem?
    intro k
    rw [List.getElem?_take, List.getElem?_take]
    split
    case isFalse => rfl
    case isTrue hk =>
      have hget := h k hk
      cases hleft : l[k]? with
      | none =>
          cases hright : l'[k]? with
          | none => rfl
          | some t =>
              rw [hleft, hright] at hget
              exact absurd hget.symm (hl' t (List.mem_of_getElem? hright))
      | some t =>
          cases hright : l'[k]? with
          | none =>
              rw [hleft, hright] at hget
              exact absurd hget (hl t (List.mem_of_getElem? hleft))
          | some t' =>
              rw [hleft, hright] at hget
              exact congrArg some hget

theorem segmentsKept_iff (compat : Payload) : SegmentsKept compat ↔
    ∀ k < 3, (segments (behindLastWs compat))[k]?.getD [] = (segments compat)[k]?.getD [] :=
  take_eq_iff (fun _ h => (Text.isField_of_mem_fields h).1)
    (fun _ h => (Text.isField_of_mem_fields h).1) 3

/-- So it is when there is no other `/ws` and no line feed. -/
theorem segmentsKept_of_plain {compat : Payload} (hws : ¬ ws <:+: compat) (hline : '\n' ∉ compat) :
    SegmentsKept compat := by
  have hnone : Search.lastAt ws compat = none :=
    (Search.lastAt_eq_none_iff (by decide)).mpr hws
  have hall : ∀ c ∈ compat, (c != '\n') = true := fun c hc =>
    bne_iff_ne.mpr fun heq => hline (heq ▸ hc)
  rw [SegmentsKept, behindLastWs, hnone, Option.map_none, Option.getD_none,
    List.takeWhile_eq_self_iff.mpr hall]

/-- The parts survive the URL if and only if the decoded URI is what it decodes to once more, the URI
with the options and what is added can be read, and what is added has no segments behind another
`/ws` or a line feed. -/
theorem survives_iff {poco : PocoURI} (hpoco : poco.Documented) (wopiSrc : Payload)
    (options : List Payload) (compat : Payload) :
    Survives poco wopiSrc options compat ↔
      ∃ decodedWopiSrc, Uri.decode poco wopiSrc = some decodedWopiSrc ∧
        Uri.decode poco decodedWopiSrc = some decodedWopiSrc ∧
        Readable poco (wopiSrcWithOptions decodedWopiSrc options) ∧
        CompatReadable poco compat ∧ SegmentsKept compat := by
  rw [Survives]
  apply exists_congr
  intro decodedWopiSrc
  rw [segmentsKept_iff]
  constructor
  · rintro ⟨details, hdecoded, hparts, hwopi, -, hsession, hcommand, hserial⟩
    rcases (ofParts_eq_some hpoco hdecoded).mp hparts with ⟨params, docUriParams, huri, hdoc, rfl⟩
    rcases fieldsOf_uriOfParts (wopiSrcWithOptions decodedWopiSrc options) params with
      ⟨hfirst, hsecond, hthird⟩
    have hagain : getParam params "WOPISrc".toList = decodedWopiSrc := hwopi
    have hread : Readable poco (uriOfParts poco decodedWopiSrc options compat) :=
      (getParams_isSome _).mp (huri ▸ rfl)
    refine ⟨hdecoded, ?_, (getParams_isSome _).mp (hdoc ▸ rfl),
      ((readable_uriOfParts hpoco).mp hread).2, ?_⟩
    · rw [getParam_uriOfParts hpoco huri, hagain]
    · intro k hk
      have hcases : k = 0 ∨ k = 1 ∨ k = 2 := by omega
      rcases hcases with rfl | rfl | rfl
      · exact (congrArg (·.getD []) hfirst).symm.trans hsession
      · exact (congrArg (·.getD []) hsecond).symm.trans hcommand
      · exact (congrArg (·.getD []) hthird).symm.trans hserial
  · rintro ⟨hdecoded, hagain, hdoc, hcompat, hsegments⟩
    have hread : Readable poco (uriOfParts poco decodedWopiSrc options compat) :=
      (readable_uriOfParts hpoco).mpr ⟨hagain ▸ rfl, hcompat⟩
    rcases Option.isSome_iff_exists.mp ((getParams_isSome _).mpr hread) with ⟨params, huri⟩
    rcases Option.isSome_iff_exists.mp ((getParams_isSome _).mpr hdoc) with ⟨docUriParams, hdoc⟩
    rcases fieldsOf_uriOfParts (wopiSrcWithOptions decodedWopiSrc options) params with
      ⟨hfirst, hsecond, hthird⟩
    refine ⟨_, hdecoded, (ofParts_eq_some hpoco hdecoded).mpr ⟨params, docUriParams, huri, hdoc,
      rfl⟩, ?_, rfl, ?_, ?_, ?_⟩
    · exact Option.some.inj ((getParam_uriOfParts hpoco huri).symm.trans hagain)
    · exact (congrArg (·.getD []) hfirst).trans (hsegments 0 (by decide))
    · exact (congrArg (·.getD []) hsecond).trans (hsegments 1 (by decide))
    · exact (congrArg (·.getD []) hthird).trans (hsegments 2 (by decide))

/-- A document with an option and all three segments. -/
theorem survives_edit :
    PocoURI.Documented .percentCoding ∧
      Survives .percentCoding "http%3A%2F%2Fh%2Fw".toList ["permission=edit".toList]
        "/s/open/1".toList := by
  refine ⟨PocoURI.documented_percentCoding,
    (survives_iff PocoURI.documented_percentCoding _ _ _).mpr
      ⟨"http://h/w".toList, by decide +kernel, by decide +kernel, ?_, ?_,
        segmentsKept_of_plain (by decide +kernel) (by decide +kernel)⟩⟩
  · exact (getParams_isSome _).mp (by decide +kernel)
  · refine ⟨by decide +kernel, [("compat".toList, "/ws/s/open/1".toList)], by decide +kernel, ?_⟩
    rw [DecodesAgain, List.forall_mem_singleton]
    exact ⟨by decide +kernel, by decide +kernel⟩

/-- A slash that is escaped in the decoded URI. -/
theorem not_survives_slash :
    Uri.decode .percentCoding "http%3A%2F%2Fh%2Fa%252Fb".toList = some "http://h/a%2Fb".toList ∧
      (ofParts .percentCoding "http%3A%2F%2Fh%2Fa%252Fb".toList [] []).map
        (·.getField .wopiSrc) = some "http://h/a/b".toList ∧
      ¬ Survives .percentCoding "http%3A%2F%2Fh%2Fa%252Fb".toList [] [] := by
  have hdecode : Uri.decode .percentCoding "http%3A%2F%2Fh%2Fa%252Fb".toList =
      some "http://h/a%2Fb".toList := by decide +kernel
  have hfield : (ofParts .percentCoding "http%3A%2F%2Fh%2Fa%252Fb".toList [] []).map
      (·.getField .wopiSrc) = some "http://h/a/b".toList := by decide +kernel
  refine ⟨hdecode, hfield, ?_⟩
  rintro ⟨decodedWopiSrc, details, hdecoded, hparts, hwopi, -⟩
  rw [hdecoded] at hdecode
  rw [hparts, Option.map_some, hwopi] at hfield
  exact absurd (Option.some.inj (hfield.symm.trans hdecode)) (by decide)

end RequestDetails

end CoolOnline
