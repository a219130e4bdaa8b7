import CoolOnline.Common.Protocol
import CoolOnline.Library.History

/-! # Memoised conversions

`uiDefaultsToJSON`, `checkFileInfoToJSON` and `cssVarsToStyle` of `wsd/FileServerUtil.cpp`, with the
static variables that hold what the previous call was given and what it returned.
-/

namespace CoolOnline.FileServer

open StringVector

/-! ## JSON objects -/

/-- The members in the order of their names, as in the map of a JSON object. -/
abbrev Members (α : Type) := List (Payload × α)

/-- Set a member, in place of one with the name. -/
def Members.set {α : Type} (name : Payload) (value : α) : Members α → Members α
  | [] => [(name, value)]
  | member :: members =>
      if member.1 = name then (name, value) :: members
      else if name < member.1 then (name, value) :: member :: members
      else member :: Members.set name value members

inductive JSONValue
  | string (s : Payload)
  | bool (b : Bool)
  | object (members : Members Payload)
deriving DecidableEq

/-- `operator[]`. -/
def nth (tokens : List Payload) (index : ℕ) : Payload := tokens[index]?.getD []

def startsWith (tokens : List Payload) (index : ℕ) (string : Payload) : Bool :=
  tokens[index]?.any (string.isPrefixOf ·)

/-! ## Defaults of the user interface -/

/-- What the tokens of the defaults have set. -/
structure UIDefaults where
  json : Members JSONValue
  textDefs : Members Payload
  spreadsheetDefs : Members Payload
  presentationDefs : Members Payload
  drawingDefs : Members Payload
  uiMode : Payload
  uiTheme : Payload
  savedUIState : Payload

namespace UIDefaults

/-- Before the first token. -/
def initial : UIDefaults := ⟨[], [], [], [], [], [], "light".toList, "true".toList⟩

/-- Show or hide a widget; other names are errors. -/
def setWidget (keyValue : List Payload) (key : Payload) (defs : Members Payload) :
    Members Payload :=
  if key ∈ ["Ruler".toList, "Sidebar".toList, "Statusbar".toList, "Toolbar".toList] then
    let value :=
      if equals keyValue 1 "false".toList ∨ equals keyValue 1 "False".toList ∨
        equals keyValue 1 "0".toList then "false".toList else "true".toList
    defs.set ("Show".toList ++ key) value
  else defs

def setUIMode (d : UIDefaults) (mode : Payload) : UIDefaults :=
  { d with json := d.json.set "uiMode".toList (.string mode), uiMode := mode }

/-- One token, `key=value`. -/
def add (d : UIDefaults) (token : Payload) : UIDefaults :=
  let keyValue := tokenize token '='
  let value := nth keyValue 1
  -- detect the UIMode or component
  if equals keyValue 0 "UIMode".toList then
    if equals keyValue 1 "compact".toList ∨ equals keyValue 1 "classic".toList then
      d.setUIMode "classic".toList
    else if equals keyValue 1 "tabbed".toList ∨ equals keyValue 1 "notebookbar".toList then
      d.setUIMode "notebookbar".toList
    else d
  -- detect the UITheme default, light or dark
  else if equals keyValue 0 "UITheme".toList then
    let dark := if equals keyValue 1 "dark".toList then "true".toList else "false".toList
    { d with json := d.json.set "darkTheme".toList (.string dark), uiTheme := value }
  else
    let d :=
      if equals keyValue 0 "SavedUIState".toList then
        { d with
          savedUIState :=
            if equals keyValue 1 "false".toList then "false".toList else "true".toList }
      else d
    if equals keyValue 0 "SaveAsMode".toList then
      if equals keyValue 1 "group".toList then
        { d with json := d.json.set "saveAsMode".toList (.string "group".toList) }
      else d
    else if equals keyValue 0 "TouchscreenHint".toList then
      { d with json := d.json.set "touchscreenHint".toList (.string value) }
    else if equals keyValue 0 "OnscreenKeyboardHint".toList then
      { d with json := d.json.set "onscreenKeyboardHint".toList (.string value) }
    else if startsWith keyValue 0 "Text".toList then
      { d with textDefs := setWidget keyValue ((nth keyValue 0).drop 4) d.textDefs }
    else if startsWith keyValue 0 "Spreadsheet".toList then
      { d with
        spreadsheetDefs := setWidget keyValue ((nth keyValue 0).drop 11) d.spreadsheetDefs }
    else if startsWith keyValue 0 "Presentation".toList then
      { d with
        presentationDefs := setWidget keyValue ((nth keyValue 0).drop 12) d.presentationDefs }
    else if "Drawing".toList.isPrefixOf (nth keyValue 0) then
      { d with drawingDefs := setWidget keyValue ((nth keyValue 0).drop 7) d.drawingDefs }
    -- unknown component
    else d

/-- A member for the defaults of a component, if there are any. -/
def addComponent (name : Payload) (defs : Members Payload) (json : Members JSONValue) :
    Members JSONValue :=
  if defs.length > 0 then json.set name (.object defs) else json

/-- The JSON object of all defaults. -/
def object (d : UIDefaults) : Members JSONValue :=
  addComponent "drawing".toList d.drawingDefs (addComponent "presentation".toList d.presentationDefs
    (addComponent "spreadsheet".toList d.spreadsheetDefs
      (addComponent "text".toList d.textDefs d.json)))

/-- The conversion of the defaults. -/
def of (uiDefaults : Payload) : UIDefaults := (tokenize uiDefaults ';').foldl add initial

end UIDefaults

/-! ## The other conversions -/

def addCheckFileInfo (json : Members JSONValue) (token : Payload) : Members JSONValue :=
  let keyValue := tokenize token '='
  if equals keyValue 0 "DownloadAsPostMessage".toList then
    json.set (nth keyValue 0) (.bool (equals keyValue 1 "true".toList ||
      equals keyValue 1 "True".toList || equals keyValue 1 "1".toList))
  else json

/-- The JSON object of the information. -/
def checkFileInfoObject (checkfileInfo : Payload) : Members JSONValue :=
  (tokenize checkfileInfo ';').foldl addCheckFileInfo []

def forbidden : Payload := "<>\x7b\x7d&|\\\"^\x60'$[]".toList

def isValidCss (token : Payload) : Bool :=
  token.all fun c => !(c.toNat < 0x20 || c.toNat ≥ 0x7F || c ∈ forbidden)

def addCssVar (style : Payload) (param : Payload) : Payload :=
  let keyValue := tokenize param '='
  if keyValue.length < 2 then style
  else if keyValue.length > 2 then style
  else if isValidCss param = false then style
  else style ++ nth keyValue 0 ++ ":".toList ++ nth keyValue 1 ++ ";".toList

/-- The style sheet of the variables. -/
def styleSheet (cssVars : Payload) : Payload :=
  (tokenize cssVars ';').foldl addCssVar ":root \x7b".toList ++ "\x7d".toList

def encodingTable : Payload :=
  "ABCDEFGHIJKLMNOPQRSTUVWXYZabcdefghijklmnopqrstuvwxyz0123456789+/".toList

/-- The character of six bits. -/
def sixBits (n : ℕ) : Char := encodingTable[n]?.getD 'A'

/-- `Base64::Encode`. -/
def base64Encode : Payload → Payload
  | [] => []
  | [a] => [sixBits (a.toNat / 4 % 64), sixBits (a.toNat % 4 * 16), '=', '=']
  | [a, b] =>
      [sixBits (a.toNat / 4 % 64), sixBits (a.toNat % 4 * 16 + b.toNat / 16 % 16),
        sixBits (b.toNat % 16 * 4), '=']
  | a :: b :: c :: rest =>
      sixBits (a.toNat / 4 % 64) :: sixBits (a.toNat % 4 * 16 + b.toNat / 16 % 16) ::
        sixBits (b.toNat % 16 * 4 + c.toNat / 64 % 4) :: sixBits (c.toNat % 64) ::
          base64Encode rest

/-! ## Calls -/

/-- The static variables of the functions. -/
structure Statics where
  previousUIDefaults : Payload
  previousJSON : Payload
  previousUIMode : Payload
  previousCheckFileInfo : Payload
  previousCheckFileInfoJSON : Payload
  previousVars : Payload
  previousStyle : Payload

/-- Before any call. -/
def Statics.initial : Statics := ⟨[], "\x7b\x7d".toList, [], [], "\x7b\x7d".toList, [], []⟩

/-- The output parameters, as the caller has them or as they are set. -/
structure Outputs where
  uiMode : Payload
  uiTheme : Payload
  savedUIState : Payload
deriving DecidableEq

section

variable (stringify : Members JSONValue → Payload) (s : Statics)

def uiDefaultsToJSON (uiDefaults : Payload) (out : Outputs) : Statics × Payload × Outputs :=
  -- early exit if we are serving the same thing
  if uiDefaults = s.previousUIDefaults then
    (s, s.previousJSON, { out with uiMode := s.previousUIMode })
  else
    let d := UIDefaults.of uiDefaults
    let json := stringify d.object
    ({ s with previousUIDefaults := uiDefaults, previousJSON := json, previousUIMode := d.uiMode },
      json, ⟨d.uiMode, d.uiTheme, d.savedUIState⟩)

def checkFileInfoToJSON (checkfileInfo : Payload) : Statics × Payload :=
  if checkfileInfo = s.previousCheckFileInfo then (s, s.previousCheckFileInfoJSON)
  else
    let json := stringify (checkFileInfoObject checkfileInfo)
    ({ s with previousCheckFileInfo := checkfileInfo, previousCheckFileInfoJSON := json }, json)

def cssVarsToStyle (cssVars : Payload) : Statics × Payload :=
  if cssVars = s.previousVars then (s, s.previousStyle)
  else
    let style := base64Encode (styleSheet cssVars)
    ({ s with previousVars := cssVars, previousStyle := style }, style)

end

inductive Call
  | uiDefaultsToJSON (uiDefaults : Payload) (out : Outputs)
  | checkFileInfoToJSON (checkfileInfo : Payload)
  | cssVarsToStyle (cssVars : Payload)

/-- What a call returns, with the output parameters that it has. -/
abbrev Answer := Payload × Option Outputs

namespace Call

variable (stringify : Members JSONValue → Payload)

def apply (s : Statics) : Call → Statics × Answer
  | uiDefaultsToJSON uiDefaults out =>
      let result := FileServer.uiDefaultsToJSON stringify s uiDefaults out
      (result.1, result.2.1, some result.2.2)
  | checkFileInfoToJSON checkfileInfo =>
      let result := FileServer.checkFileInfoToJSON stringify s checkfileInfo
      (result.1, result.2, none)
  | cssVarsToStyle cssVars =>
      let result := FileServer.cssVarsToStyle s cssVars
      (result.1, result.2, none)

def step (s : Statics) (call : Call) : Option Statics := some (call.apply stringify s).1

/-- A call answers what it would as the first one. -/
def Transparent (s : Statics) (call : Call) (_ : Statics) : Prop :=
  (call.apply stringify s).2 = (call.apply stringify .initial).2

instance (s : Statics) (call : Call) (s' : Statics) : Decidable (call.Transparent stringify s s') :=
  inferInstanceAs (Decidable (_ = _))

/-- The early exit is taken as by the first call, or the variables of the caller hold the theme and
the state of the defaults; no style has been made when there are no variables. -/
def Unnoticed (s : Statics) (call : Call) (_ : Statics) : Prop :=
  match call with
  | uiDefaultsToJSON uiDefaults out =>
      (uiDefaults = s.previousUIDefaults ↔ uiDefaults = []) ∨
        out.uiTheme = (UIDefaults.of uiDefaults).uiTheme ∧
          out.savedUIState = (UIDefaults.of uiDefaults).savedUIState
  | checkFileInfoToJSON _ => True
  | cssVarsToStyle cssVars => cssVars = [] → s.previousStyle = []

end Call

/-! ## What the static variables hold -/

/-- The values of the previous arguments. -/
structure Statics.Holds (stringify : Members JSONValue → Payload) (s : Statics) : Prop where
  json : s.previousJSON = stringify (UIDefaults.of s.previousUIDefaults).object
  uiMode : s.previousUIMode = (UIDefaults.of s.previousUIDefaults).uiMode
  checkFileInfo : s.previousCheckFileInfoJSON = stringify (checkFileInfoObject s.previousCheckFileInfo)
  style : s.previousStyle = base64Encode (styleSheet s.previousVars) ∨
    s.previousVars = [] ∧ s.previousStyle = []

section

variable {stringify : Members JSONValue → Payload} {s : Statics}

theorem tokenize_nil (delimiter : Char) : tokenize [] delimiter = [] := by
  simp [tokenize]

theorem holds_initial (hempty : stringify [] = "\x7b\x7d".toList) :
    Statics.initial.Holds stringify := by
  refine ⟨?_, ?_, ?_, .inr ⟨rfl, rfl⟩⟩
  · rw [Statics.initial, UIDefaults.of, tokenize_nil]
    exact hempty.symm
  · rw [Statics.initial, UIDefaults.of, tokenize_nil]
    rfl
  · rw [Statics.initial, checkFileInfoObject, tokenize_nil]
    exact hempty.symm

theorem Statics.Holds.apply (h : s.Holds stringify) (call : Call) :
    (call.apply stringify s).1.Holds stringify := by
  cases call with
  | uiDefaultsToJSON uiDefaults out =>
      rw [Call.apply, uiDefaultsToJSON]
      split
      case isTrue => exact h
      case isFalse => exact ⟨rfl, rfl, h.checkFileInfo, h.style⟩
  | checkFileInfoToJSON checkfileInfo =>
      rw [Call.apply, checkFileInfoToJSON]
      split
      case isTrue => exact h
      case isFalse => exact ⟨h.json, h.uiMode, rfl, h.style⟩
  | cssVarsToStyle cssVars =>
      rw [Call.apply, cssVarsToStyle]
      split
      case isTrue => exact h
      case isFalse => exact ⟨h.json, h.uiMode, h.checkFileInfo, .inl rfl⟩

/-! ## What a call answers -/

/-- The outputs of the defaults, when they are converted. -/
def UIDefaults.outputs (d : UIDefaults) : Outputs := ⟨d.uiMode, d.uiTheme, d.savedUIState⟩

/-- The JSON text and the mode are always those of the argument; the theme and the state only when
it is converted. -/
theorem answer_uiDefaults (h : s.Holds stringify) (uiDefaults : Payload) (out : Outputs) :
    (Call.apply stringify s (.uiDefaultsToJSON uiDefaults out)).2 =
      (stringify (UIDefaults.of uiDefaults).object,
        some (if uiDefaults = s.previousUIDefaults then
          { out with uiMode := (UIDefaults.of uiDefaults).uiMode }
          else (UIDefaults.of uiDefaults).outputs)) := by
  rw [Call.apply, uiDefaultsToJSON]
  split
  case isTrue hsame => rw [hsame, ← h.json, ← h.uiMode]
  case isFalse => rfl

theorem answer_checkFileInfo (h : s.Holds stringify) (checkfileInfo : Payload) :
    (Call.apply stringify s (.checkFileInfoToJSON checkfileInfo)).2 =
      (stringify (checkFileInfoObject checkfileInfo), none) := by
  rw [Call.apply, checkFileInfoToJSON]
  split
  case isTrue hsame => rw [hsame, ← h.checkFileInfo]
  case isFalse => rfl

theorem answer_cssVars (h : s.Holds stringify) {cssVars : Payload} (hvars : cssVars ≠ []) :
    (Call.apply stringify s (.cssVarsToStyle cssVars)).2 =
      (base64Encode (styleSheet cssVars), none) := by
  rw [Call.apply, cssVarsToStyle]
  split
  case isTrue hsame =>
    have hstyle := h.style.resolve_right fun hnone => hvars (hsame.trans hnone.1)
    rw [hsame, ← hstyle]
  case isFalse => rfl

theorem base64Encode_ne_nil {text : Payload} (h : text ≠ []) : base64Encode text ≠ [] := by
  match text with
  | [] => exact absurd rfl h
  | [_] => exact List.cons_ne_nil _ _
  | [_, _] => exact List.cons_ne_nil _ _
  | _ :: _ :: _ :: _ => exact List.cons_ne_nil _ _

theorem style_ne_nil (cssVars : Payload) : base64Encode (styleSheet cssVars) ≠ [] :=
  base64Encode_ne_nil (List.append_ne_nil_of_right_ne_nil _ (List.cons_ne_nil _ _))

/-- Without variables the answer is empty just as long as no style has been made. -/
theorem answer_noVars (h : s.Holds stringify) :
    (Call.apply stringify s (.cssVarsToStyle [])).2 = ([], none) ↔ s.previousStyle = [] := by
  rw [Call.apply, cssVarsToStyle]
  split
  case isTrue => exact ⟨fun heq => congrArg Prod.fst heq, fun heq => by rw [heq]⟩
  case isFalse hother =>
    refine iff_of_false (fun heq => ?_) fun hnil => ?_
    · exact style_ne_nil [] (congrArg Prod.fst heq)
    · cases h.style with
      | inl hstyle => exact style_ne_nil s.previousVars (hstyle.symm.trans hnil)
      | inr hnone => exact hother hnone.1.symm

/-- The theme and the state of a caller are overwritten or not. -/
theorem outputs_eq_iff (d : UIDefaults) (out : Outputs) :
    { out with uiMode := d.uiMode } = d.outputs ↔
      out.uiTheme = d.uiTheme ∧ out.savedUIState = d.savedUIState := by
  rw [UIDefaults.outputs, Outputs.mk.injEq]
  exact ⟨fun h => h.2, fun h => ⟨rfl, h⟩⟩

/-- A call is transparent exactly when nothing shows that there was one before. -/
theorem transparent_iff (hempty : stringify [] = "\x7b\x7d".toList) (h : s.Holds stringify)
    (call : Call) (s' : Statics) :
    call.Transparent stringify s s' ↔ call.Unnoticed s s' := by
  have hinitial := holds_initial hempty
  cases call with
  | uiDefaultsToJSON uiDefaults out =>
      rw [Call.Transparent, answer_uiDefaults h, answer_uiDefaults hinitial, Prod.mk.injEq,
        Option.some.injEq, Call.Unnoticed]
      have hfirst : uiDefaults = Statics.initial.previousUIDefaults ↔ uiDefaults = [] := Iff.rfl
      have houtputs := outputs_eq_iff (UIDefaults.of uiDefaults) out
      simp only [true_and, hfirst]
      by_cases hsame : uiDefaults = s.previousUIDefaults <;> by_cases hnil : uiDefaults = []
      · rw [if_pos hsame, if_pos hnil]
        exact iff_of_true rfl (.inl (iff_of_true hsame hnil))
      · rw [if_pos hsame, if_neg hnil, houtputs]
        exact ⟨.inr, fun hiff => hiff.resolve_left fun hboth => hnil (hboth.mp hsame)⟩
      · rw [if_neg hsame, if_pos hnil, eq_comm, houtputs]
        exact ⟨.inr, fun hiff => hiff.resolve_left fun hboth => hsame (hboth.mpr hnil)⟩
      · rw [if_neg hsame, if_neg hnil]
        exact iff_of_true rfl (.inl (iff_of_false hsame hnil))
  | checkFileInfoToJSON checkfileInfo =>
      rw [Call.Transparent, answer_checkFileInfo h, answer_checkFileInfo hinitial]
      exact iff_of_true rfl trivial
  | cssVarsToStyle cssVars =>
      by_cases hvars : cssVars = []
      case pos =>
        have hfirst := (answer_noVars hinitial).mpr rfl
        rw [Call.Transparent, hvars, hfirst, answer_noVars h]
        exact ⟨fun hnil _ => hnil, fun hnil => hnil rfl⟩
      case neg =>
        rw [Call.Transparent, answer_cssVars h hvars, answer_cssVars hinitial hvars]
        exact iff_of_true rfl fun hnil => absurd hnil hvars

end

/-- The calls of a sequence are all transparent exactly when none of them shows the ones before. -/
theorem allSteps_transparent_iff {stringify : Members JSONValue → Payload}
    (hempty : stringify [] = "\x7b\x7d".toList) (calls : List Call) :
    AllSteps (Call.step stringify) (Call.Transparent stringify) .initial calls ↔
      AllSteps (Call.step stringify) Call.Unnoticed .initial calls := by
  refine allSteps_iff _ (I := Statics.Holds stringify) ?_ ?_ (holds_initial hempty) calls
  case refine_1 =>
    intro s call s' h _
    exact transparent_iff hempty h call s'
  case refine_2 =>
    intro s call s' h hstep _
    cases hstep
    exact h.apply call

/-- As the library prints objects without members, and others that do not matter here. -/
def printed : Members JSONValue → Payload
  | [] => "\x7b\x7d".toList
  | member :: _ => member.1

theorem transparent_otherDefaults :
    AllSteps (Call.step printed) (Call.Transparent printed) .initial
      [.uiDefaultsToJSON "UITheme=dark".toList ⟨[], [], []⟩, .checkFileInfoToJSON [],
        .uiDefaultsToJSON "UIMode=tabbed".toList ⟨[], [], []⟩, .cssVarsToStyle "a=b".toList] := by
  refine (allSteps_transparent_iff rfl _).mpr ?_
  refine allSteps_cons_of_step _ rfl (.inl (by decide)) (allSteps_cons_of_step _ rfl trivial
    (allSteps_cons_of_step _ rfl (.inl (by decide)) (allSteps_cons_of_step _ rfl ?_ trivial)))
  intro hnil
  cases hnil

/-- The second user with the same defaults, and a page without variables after one with some. -/
theorem not_transparent_sameDefaults :
    ¬ AllSteps (Call.step printed) (Call.Transparent printed) .initial
        [.uiDefaultsToJSON "UITheme=dark".toList ⟨[], [], []⟩,
          .uiDefaultsToJSON "UITheme=dark".toList ⟨[], [], []⟩] ∧
      ¬ AllSteps (Call.step printed) (Call.Transparent printed) .initial
        [.cssVarsToStyle "a=b".toList, .cssVarsToStyle []] := by
  refine ⟨fun h => ?_, fun h => ?_⟩
  · have hagain := ((h.of_cons _ rfl).2.of_cons _ rfl).1
    exact absurd hagain (by decide)
  · have hagain := ((h.of_cons _ rfl).2.of_cons _ rfl).1
    exact absurd hagain (by decide)

end CoolOnline.FileServer
