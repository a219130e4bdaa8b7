import CoolOnline.Common.Uri

/-! # Typed text

`TextInput` of `browser/src/layer/marker/TextInput.js`, without accessibility support: a hidden text
area takes what is typed. Its content is compared with what it was, and the difference is sent as
messages that remove and insert text at the cursor of the document.
-/

namespace CoolOnline.Browser.Typing

/-! ## Strings -/

/-- A string of JavaScript, by its UTF-16 code units. -/
abbrev JsString := List UInt16

/-- A literal of characters that are code units. -/
def jsString (text : List Char) : JsString := text.map fun c => UInt16.ofNat c.toNat

/-- `/[\n\r]/`. -/
def isLineBreak (unit : UInt16) : Bool := unit == 10 || unit == 13

def isHighSurrogate (unit : UInt16) : Bool := 0xD800 ≤ unit && unit ≤ 0xDBFF

def isLowSurrogate (unit : UInt16) : Bool := 0xDC00 ≤ unit && unit ≤ 0xDFFF

/-- The characters of a string, if no surrogate in it is alone. -/
def characters : JsString → Option (List Char)
  | [] => some []
  | unit :: rest =>
      if isLowSurrogate unit then none
      else if isHighSurrogate unit then
        match rest with
        | low :: rest =>
            if isLowSurrogate low then
              (characters rest).map fun text =>
                Char.ofNat (0x10000 + (unit.toNat - 0xD800) * 0x400 + (low.toNat - 0xDC00)) :: text
            else none
        | [] => none
      else (characters rest).map fun text => Char.ofNat unit.toNat :: text

/-- `encodeURIComponent` keeps letters, digits and these. -/
def isComponentChar (c : Char) : Bool := c.isAlphanum || "-_.!~*'()".toList.contains c

def escapeByte (byte : UInt8) : Payload :=
  let c := Char.ofNat byte.toNat
  if isComponentChar c then [c]
  else ['%', PocoURI.upperDigit (byte.toNat / 16), PocoURI.upperDigit (byte.toNat % 16)]

/-- The bytes of a text in UTF-8. -/
def utf8 (text : List Char) : List UInt8 := text.flatMap String.utf8EncodeChar

/-- Nothing for the `URIError` that a lone surrogate throws. -/
def encodeURIComponent (text : JsString) : Option Payload :=
  (characters text).map fun text => (utf8 text).flatMap escapeByte

/-! ## The text area -/

inductive DeleteHint
  | none
  | delete
  | backspace
deriving DecidableEq, Repr

structure TextInput where
  lastContent : JsString
  deleteHint : DeleteHint
  newlineHint : Bool
  linebreakHint : Bool
  ignoreNextBackspace : Bool
  /-- A member of the map. -/
  numPadDecimalPressed : Bool
deriving DecidableEq, Repr

/-- What the handlers read of the map and of `window.mode`. -/
structure Mode where
  isUIBlocked : Bool
  isMobile : Bool
  isTablet : Bool
  isDesktop : Bool
  isSpreadsheet : Bool
  /-- Only a spreadsheet has one; it is not empty. -/
  decimalSeparator : Option JsString
deriving DecidableEq, Repr

/-- The `inputType` of an event, where the handlers tell it from others. -/
inductive InputType
  | deleteContentForward
  | deleteContentBackward
  | insertText
  | other
deriving DecidableEq, Repr

/-- The text area when an event is handled: whether its first and its last child are there, and its
text. -/
structure Area where
  hasPreSpace : Bool
  hasPostSpace : Bool
  value : JsString
deriving DecidableEq, Repr

inductive KeyType
  | input
  | up
deriving DecidableEq, Repr

/-- A message to the server. The codes of a key event may be `undefined`. -/
inductive Sent
  | removeTextContent (before after : Nat)
  | composition (text : JsString)
  | key (charCode unoKeyCode : Option Nat) (type : KeyType)
deriving DecidableEq, Repr

/-! ## Messages -/

/-- A number that is written in a message. -/
def printNumber : Option Nat → Payload
  | some n => Text.decimal n
  | none => "undefined".toList

def KeyType.word : KeyType → Payload
  | .input => "input".toList
  | .up => "up".toList

/-- The keys of a document go to it, others to their window. -/
def Sent.keyCommand (winId : Nat) (editorHasFocus : Bool) : Payload :=
  if editorHasFocus then "key".toList
  else "windowkey id=".toList ++ Text.decimal winId

/-- The text that is sent for the window `winId`. -/
def Sent.message (winId : Nat) (editorHasFocus : Bool) : Sent → Option Payload
  | .removeTextContent before after =>
      some ("removetextcontext id=".toList ++ Text.decimal winId ++ " before=".toList ++
        Text.decimal before ++ " after=".toList ++ Text.decimal after)
  | .composition text =>
      (encodeURIComponent text).map fun encodedText =>
        "textinput id=".toList ++ Text.decimal winId ++ " text=".toList ++ encodedText
  | .key charCode unoKeyCode type =>
      some (Sent.keyCommand winId editorHasFocus ++ " type=".toList ++ type.word ++
        " char=".toList ++ printNumber charCode ++ " key=".toList ++ printNumber unoKeyCode ++
        ['\n'])

/-! ## Handlers -/

/-- What a handler leaves, what it has sent, and whether it has ended in an exception. -/
structure Handled where
  input : TextInput
  sent : List Sent
  threw : Bool
deriving DecidableEq, Repr

namespace Handled

def andThen (h : Handled) (next : TextInput → Handled) : Handled :=
  if h.threw then h
  else
    let h' := next h.input
    ⟨h'.input, h.sent ++ h'.sent, h'.threw⟩

end Handled

namespace TextInput

/-- No key has been used yet. -/
def new : TextInput := ⟨[], .none, false, false, false, false⟩

/-- Nothing is thrown. -/
def sends (input : TextInput) (sent : List Sent) : Handled := ⟨input, sent, false⟩

/-- `_autoCorrectChars`: two pairs of a character and a key, one for the key that is pressed and one
for the key that is let go. -/
def autoCorrectChars : List (UInt16 × (Nat × Nat) × (Nat × Nat)) :=
  [(32, (32, 0), (0, 1284)), (33, (33, 0), (0, 4353)), (34, (34, 0), (0, 4353)),
    (37, (37, 0), (0, 4357)), (39, (39, 0), (0, 192)), (42, (42, 0), (0, 4360)),
    (44, (44, 0), (0, 1291)), (45, (45, 0), (0, 1288)), (46, (46, 0), (0, 190)),
    (47, (47, 0), (0, 191)), (58, (58, 0), (0, 5413)), (59, (59, 0), (0, 1317)),
    (63, (63, 0), (0, 4287)), (95, (95, 0), (0, 5384))]

/-- An object has these members from `Object.prototype`. -/
def inheritedMembers : List JsString :=
  ["constructor", "hasOwnProperty", "isPrototypeOf", "propertyIsEnumerable", "toLocaleString",
    "toString", "valueOf", "__defineGetter__", "__defineSetter__", "__lookupGetter__",
    "__lookupSetter__", "__proto__"].map fun name => jsString name.toList

/-- The codes of `_autoCorrectChars[text]`. An inherited member is no array: its elements are
`undefined`. -/
inductive Codes
  | codes (input up : Nat × Nat)
  | undefined
deriving DecidableEq, Repr

def autoCorrectChar (text : JsString) : Option Codes :=
  match text with
  | [unit] => (autoCorrectChars.lookup unit).map fun codes => .codes codes.1 codes.2
  | _ => if text ∈ inheritedMembers then some .undefined else none

/-- `_unoKeyMap`, for a digit. -/
def unoKey (digit : UInt16) : Nat := 96 + (digit.toNat - 48)

/-- `_isDigit` of an array: one number is compared, more are no number. -/
def isDigit : JsString → Bool
  | [unit] => 48 ≤ unit && unit ≤ 57
  | _ => false

/-- `_emptyArea`; `_ignoreInputCount` keeps the events it brings away. -/
def emptyArea (input : TextInput) : TextInput := { input with lastContent := [] }

def sendNewlineEvent (input : TextInput) : Handled :=
  let unoKeyCode := if input.linebreakHint then 5376 else 1280
  sends { input with newlineHint := false }.emptyArea [.key (some 13) (some unoKeyCode) .input]

/-- The two key events of a character that may be corrected. -/
def sendKeys : Codes → List Sent
  | .codes input up =>
      [.key (some input.1) (some input.2) .input, .key (some up.1) (some up.2) .up]
  | .undefined => [.key none none .input, .key none none .up]

def sendComposition (input : TextInput) (text : JsString) : Handled :=
  if (encodeURIComponent text).isSome then sends input [.composition text]
  else ⟨input, [], true⟩

/-- `_sendCompositionEvent`. A separator that is no character of the table has no codes. -/
def sendCompositionEvent (mode : Mode) (input : TextInput) (text : JsString) : Handled :=
  match autoCorrectChar text with
  | some codes =>
      if mode.isMobile || mode.isTablet then sendComposition input text
      else
        match mode.decimalSeparator, input.numPadDecimalPressed with
        | some separator, true =>
            let input := { input with numPadDecimalPressed := false }
            match autoCorrectChar separator with
            | some codes => sends input (sendKeys codes)
            | none => ⟨input, [], true⟩
        | _, _ => sends input (sendKeys codes)
  | none => sendComposition input text

/-- A part of a text between line breaks. -/
def sendPart (mode : Mode) (input : TextInput) (part : JsString) : Handled :=
  if part = [] then sends input [] else sendCompositionEvent mode input part

/-- The parts behind a line break. -/
def sendParts (mode : Mode) (input : TextInput) : List JsString → Handled
  | [] => sends input []
  | part :: parts =>
      ((sends input.emptyArea [.key (some 13) (some 1280) .input]).andThen fun input =>
        sendPart mode input part).andThen fun input => sendParts mode input parts

def sendText (mode : Mode) (input : TextInput) (text : JsString) : Handled :=
  if text = [10] ∨ text = [13] then sendNewlineEvent input
  else
    match text.splitOnP isLineBreak with
    | [] => sends input []
    | part :: parts =>
        (sendPart mode input part).andThen fun input => sendParts mode input parts

/-- `_sendNewText`. In a spreadsheet the first digit is a key event. -/
def sendNewText (mode : Mode) (input : TextInput) (inputType : Option InputType)
    (content newText : JsString) : Handled :=
  if mode.isSpreadsheet ∧ content.length = 1 ∧ inputType = some .insertText ∧
      isDigit newText ∧ mode.isDesktop then
    let digit := newText.headD 0
    sends input [.key (some digit.toNat) (some (unoKey digit)) .input]
  else sendText mode input newText

/-- What `_onInput` sends of a new text, if there is any. -/
def sendDifference (mode : Mode) (inputType : Option InputType) (content newText : JsString)
    (input : TextInput) : Handled :=
  if newText = [] then sends input [] else sendNewText mode input inputType content newText

/-- How far two contents are the same. -/
def matchTo : JsString → JsString → Nat
  | unit :: content, last :: lastContent =>
      if unit = last then matchTo content lastContent + 1 else 0
  | _, _ => 0

/-- The hint of an event's type, where no key has given one. -/
def hintOf (hint : DeleteHint) (inputType : Option InputType) : DeleteHint :=
  if hint = .none then
    match inputType with
    | some .deleteContentForward => .delete
    | some .deleteContentBackward => .backspace
    | _ => .none
  else hint

/-- The content that is left when a key has deleted behind the cursor. -/
def deletesForward (input : TextInput) (content : JsString) : Bool :=
  input.deleteHint == .delete && content.length < input.lastContent.length

/-- The part of `_onInput` that compares the contents. -/
def compareContent (mode : Mode) (input : TextInput) (inputType : Option InputType)
    (content : JsString) : Handled :=
  let shared := matchTo content input.lastContent
  let forward := input.deletesForward content
  let removeBefore := input.lastContent.length - shared - if forward then 1 else 0
  let removeAfter := if forward then 1 else 0
  let newText := content.drop shared
  let removal : List Sent :=
    if 0 < removeBefore ∨ 0 < removeAfter then [.removeTextContent removeBefore removeAfter]
    else []
  ((sends { input with lastContent := content } removal).andThen
    (sendDifference mode inputType content newText)).andThen fun input =>
      sends (if 0 < removeAfter then input.emptyArea else input) []

/-- `_onInput`. -/
def onInput (mode : Mode) (input : TextInput) (area : Area) (inputType : Option InputType) :
    Handled :=
  if mode.isUIBlocked then sends input []
  else
    let ignoreBackspace := input.ignoreNextBackspace
    let input :=
      { input with
        deleteHint := hintOf input.deleteHint inputType
        ignoreNextBackspace := false }
    if input.newlineHint then sendNewlineEvent input
    else if !area.hasPreSpace then
      sends input.emptyArea (if ignoreBackspace then [] else [.removeTextContent 1 0])
    else if !area.hasPostSpace then sends input.emptyArea [.removeTextContent 0 1]
    else compareContent mode input inputType area.value

/-- What `_onBeforeInput` finds of the selection. -/
structure Selection where
  isSelectionValid : Bool
  isInitialContent : Bool
  isCursorAtBeginning : Bool
  isCursorAtEnd : Bool
  gecko : Bool
deriving DecidableEq, Repr

def handleMisplacedCursorAtBeginning (input : TextInput) (inputType : Option InputType) : Handled :=
  if inputType = some .deleteContentBackward then
    sends { input with ignoreNextBackspace := true }.emptyArea [.removeTextContent 1 0]
  else sends input.emptyArea []

/-- `_onBeforeInput`. -/
def onBeforeInput (mode : Mode) (input : TextInput) (selection : Selection)
    (inputType : Option InputType) : Handled :=
  if mode.isUIBlocked then sends input []
  else
    let input := { input with ignoreNextBackspace := false }
    (if !selection.isSelectionValid then sends input.emptyArea []
      else if selection.isInitialContent && selection.isCursorAtBeginning then
        input.handleMisplacedCursorAtBeginning inputType
      else sends input []).andThen fun input =>
        if selection.gecko && selection.isCursorAtEnd && input.deleteHint == .delete then
          sends input.emptyArea [.removeTextContent 0 1]
        else sends input []

/-- `_onCompositionEnd`, with the text that was composed. -/
def onCompositionEnd (mode : Mode) (input : TextInput) (data : JsString) (area : Area) : Handled :=
  let input :=
    if data.getLast? = some 10 then { input with newlineHint := true } else input
  onInput mode input area none

/-- `_onKeyDown`, the hints of a key, and what the map's keyboard handler notes of it. -/
def onKeyDown (mode : Mode) (input : TextInput) (keyCode : Nat) (shiftKey numPadDecimal : Bool) :
    TextInput :=
  if mode.isUIBlocked then input
  else
    { input with
      deleteHint := if keyCode = 8 then .backspace else if keyCode = 46 then .delete else .none
      newlineHint := keyCode == 13
      linebreakHint := keyCode == 13 && shiftKey
      numPadDecimalPressed := numPadDecimal }

end TextInput

/-- The events of the text area. -/
inductive TextEvent
  | keyDown (keyCode : Nat) (shiftKey numPadDecimal : Bool)
  | beforeInput (selection : TextInput.Selection) (inputType : Option InputType)
  | input (area : Area) (inputType : Option InputType)
  | compositionEnd (data : JsString) (area : Area)
  /-- A composition is aborted, or the area gets the focus. -/
  | emptyArea
deriving DecidableEq, Repr

def TextInput.handle (mode : Mode) (input : TextInput) : TextEvent → Handled
  | .keyDown keyCode shiftKey numPadDecimal =>
      sends (input.onKeyDown mode keyCode shiftKey numPadDecimal) []
  | .beforeInput selection inputType => input.onBeforeInput mode selection inputType
  | .input area inputType => input.onInput mode area inputType
  | .compositionEnd data area => input.onCompositionEnd mode data area
  | .emptyArea => sends input.emptyArea []

end CoolOnline.Browser.Typing
