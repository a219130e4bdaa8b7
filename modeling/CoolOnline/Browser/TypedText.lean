import CoolOnline.Browser.TextInput
import CoolOnline.Library.History

/-! # The document one types in

Whatever is typed, corrected and deleted in the text area, the messages of `TextInput` make the
document one in which it was typed there.
-/

namespace CoolOnline.Browser.Typing

/-! ## The text at the cursor -/

/-- The text of a document before and behind its cursor. -/
structure CursorText (α : Type) where
  before : List α
  after : List α
deriving DecidableEq, Repr

section Document

variable {α : Type}

namespace CursorText

variable (text : CursorText α)

def insert (typed : List α) : CursorText α := { text with before := text.before ++ typed }

def remove (before after : Nat) : CursorText α :=
  ⟨text.before.take (text.before.length - before), text.after.drop after⟩

@[simp] theorem remove_zero (after : Nat) :
    text.remove 0 after = { text with after := text.after.drop after } := by
  simp [remove]

@[simp] theorem insert_nil : text.insert [] = text := by
  simp [insert]

@[simp] theorem insert_insert (typed typed' : List α) :
    (text.insert typed).insert typed' = text.insert (typed ++ typed') := by
  simp [insert]

end CursorText

/-! The document has a character for each code unit. -/

variable (charOf : UInt16 → α)

/-- What a message does to the text. Return is the key of a line feed, the character 0 is none. -/
def CursorText.receive (text : CursorText α) : Sent → CursorText α
  | .removeTextContent before after => text.remove before after
  | .composition typed => text.insert (typed.map charOf)
  | .key (some charCode) _ .input =>
      if charCode = 0 then text
      else if charCode = 13 then text.insert [charOf 10]
      else text.insert [charOf (UInt16.ofNat charCode)]
  | .key _ _ _ => text

/-! ## What is typed -/

/-- A document in which one types: what has been typed without a break is still there to be changed
as a whole. -/
structure Editor (α : Type) where
  before : List α
  area : JsString
  after : List α
deriving DecidableEq, Repr

def lineFeed (unit : UInt16) : UInt16 := if isLineBreak unit then 10 else unit

namespace Editor

variable (e : Editor α)

def text : CursorText α := ⟨e.before ++ e.area.map charOf, e.after⟩

/-- What has been typed cannot be changed any more. -/
def commit : Editor α := ⟨e.before ++ e.area.map charOf, [], e.after⟩

/-- The text that can be changed is now `value`. -/
def write (value : JsString) : Editor α :=
  if value.any isLineBreak then ⟨e.before ++ (value.map lineFeed).map charOf, [], e.after⟩
  else { e with area := value }

def backspace : Editor α := ⟨(e.before ++ e.area.map charOf).dropLast, [], e.after⟩

def delete : Editor α := ⟨e.before ++ e.area.map charOf, [], e.after.tail⟩

def newline : Editor α := ⟨e.before ++ e.area.map charOf ++ [charOf 10], [], e.after⟩

variable (mode : Mode) (input : TextInput)

/-- The text area has changed. -/
def change (area : Area) (inputType : Option InputType) : Editor α :=
  if mode.isUIBlocked then e
  else if input.newlineHint then e.newline charOf
  else if !area.hasPreSpace then
    if input.ignoreNextBackspace then e.commit charOf else e.backspace charOf
  else if !area.hasPostSpace then e.delete charOf
  else if TextInput.hintOf input.deleteHint inputType = .delete ∧
      area.value.length < e.area.length then
    e.delete charOf
  else e.write charOf area.value

/-- The text area is about to change. -/
def beforeChange (selection : TextInput.Selection) (inputType : Option InputType) : Editor α :=
  if mode.isUIBlocked then e
  else
    let e :=
      if !selection.isSelectionValid then e.commit charOf
      else if selection.isInitialContent && selection.isCursorAtBeginning then
        if inputType = some .deleteContentBackward then e.backspace charOf else e.commit charOf
      else e
    if selection.gecko && selection.isCursorAtEnd && input.deleteHint == .delete then
      e.delete charOf
    else e

def handle : TextEvent → Editor α
  | .keyDown _ _ _ => e
  | .beforeInput selection inputType => e.beforeChange charOf mode input selection inputType
  | .input area inputType => e.change charOf mode input area inputType
  | .compositionEnd data area =>
      e.change charOf mode
        (if data.getLast? = some 10 then { input with newlineHint := true } else input) area none
  | .emptyArea => e.commit charOf

end Editor

end Document

/-! ## Line breaks -/

/-- A part behind a line break, with the line feed. -/
def behindBreak (part : JsString) : JsString := 10 :: part

theorem parts_of_splitOnP (text : JsString) :
    ∃ part parts, text.splitOnP isLineBreak = part :: parts ∧
      part ++ parts.flatMap behindBreak = text.map lineFeed ∧
      (parts = [] ↔ text.any isLineBreak = false) := by
  induction text with
  | nil => exact ⟨[], [], by simp⟩
  | cons unit text ih =>
      obtain ⟨part, parts, hparts, htext, hbreak⟩ := ih
      rw [List.splitOnP_cons_eq_if_modifyHead, hparts]
      cases hunit : isLineBreak unit with
      | true =>
          refine ⟨[], part :: parts, by simp, ?_, by simp [hunit]⟩
          simp [behindBreak, htext, lineFeed, hunit]
      | false =>
          refine ⟨unit :: part, parts, by simp, ?_, by simp [hunit, hbreak]⟩
          simp [htext, lineFeed, hunit]

theorem map_lineFeed {text : JsString} (h : text.any isLineBreak = false) :
    text.map lineFeed = text := by
  apply (List.map_congr_left ?_).trans (List.map_id text)
  intro unit hunit
  have hbreak := List.any_eq_false.mp h unit hunit
  simp [lineFeed, hbreak]

/-! ## The shared beginning -/

namespace TextInput

theorem take_matchTo (content last : JsString) :
    content.take (matchTo content last) = last.take (matchTo content last) := by
  induction content, last using matchTo.induct with
  | case1 unit content last ih => simp [matchTo, ih]
  | case2 unit content last lastContent hne => simp [matchTo, hne]
  | case3 content last hnone => simp [matchTo]

theorem matchTo_le (content last : JsString) : matchTo content last ≤ last.length := by
  induction content, last using matchTo.induct with
  | case1 unit content last ih => simpa [matchTo] using ih
  | case2 unit content last lastContent hne => simp [matchTo, hne]
  | case3 content last hnone => simp [matchTo]

theorem matchTo_append (content rest : JsString) :
    matchTo content (content ++ rest) = content.length := by
  induction content with
  | nil => simp [matchTo]
  | cons unit content ih => simp [matchTo, ih]

end TextInput

/-! ## What the messages type -/

section Document

variable {α : Type} {charOf : UInt16 → α}

/-- The keypad's decimal key types no separator of a spreadsheet. -/
def TextInput.keypadTypes (mode : Mode) (input : TextInput) : Bool :=
  mode.decimalSeparator.isNone || !input.numPadDecimalPressed

namespace Handled

variable {h : Handled} {next : TextInput → Handled}

variable (charOf) in
def onText (h : Handled) (text : CursorText α) : CursorText α :=
  h.sent.foldl (CursorText.receive charOf) text

theorem andThen_threw :
    (h.andThen next).threw = false ↔ h.threw = false ∧ (next h.input).threw = false := by
  cases hthrew : h.threw <;> simp [andThen, hthrew]

theorem andThen_input (hthrew : h.threw = false) :
    (h.andThen next).input = (next h.input).input := by
  simp [andThen, hthrew]

theorem andThen_onText (hthrew : h.threw = false) (text : CursorText α) :
    (h.andThen next).onText charOf text = (next h.input).onText charOf (h.onText charOf text) := by
  simp [andThen, hthrew, onText, List.foldl_append]

/-- The messages insert `typed`, and `content` is what the area is compared with next. -/
structure Inserts (charOf : UInt16 → α) (mode : Mode) (h : Handled) (typed content : JsString) :
    Prop where
  onText (text : CursorText α) : h.onText charOf text = text.insert (typed.map charOf)
  content : h.input.lastContent = content
  keypad : h.input.keypadTypes mode = true

variable {mode : Mode} {typed typed' content content' : JsString}

theorem Inserts.andThen (hfirst : h.Inserts charOf mode typed content) (next : TextInput → Handled)
    (hnext : (next h.input).Inserts charOf mode typed' content') (hthrew : h.threw = false) :
    (h.andThen next).Inserts charOf mode (typed ++ typed') content' := by
  constructor
  · intro text
    rw [andThen_onText hthrew, hfirst.onText, hnext.onText, CursorText.insert_insert,
      List.map_append]
  · rw [andThen_input hthrew, hnext.content]
  · rw [andThen_input hthrew, hnext.keypad]

end Handled

namespace TextInput

open Browser.Typing.Handled

/-- The text is no name of an inherited member where the table of corrected characters is read. -/
def typesItself (mode : Mode) (part : JsString) : Bool :=
  mode.isMobile || mode.isTablet || !inheritedMembers.contains part

/-- The key of a corrected character types it, and letting it go types nothing. -/
theorem autoCorrectChars_type : ∀ entry ∈ autoCorrectChars,
    UInt16.ofNat entry.2.1.1 = entry.1 ∧ entry.2.1.1 ≠ 0 ∧ entry.2.1.1 ≠ 13 := by
  decide

variable (charOf) {mode : Mode} {input : TextInput}

theorem inserts_nothing (hkeypad : input.keypadTypes mode = true) :
    (sends input []).Inserts charOf mode [] input.lastContent :=
  ⟨fun text => by simp [sends, onText], rfl, hkeypad⟩

theorem inserts_composition (hkeypad : input.keypadTypes mode = true) {text : JsString}
    (hthrew : (sendComposition input text).threw = false) :
    (sendComposition input text).Inserts charOf mode text input.lastContent := by
  unfold sendComposition at hthrew ⊢
  split
  · exact ⟨fun t => rfl, rfl, hkeypad⟩
  · rename_i hencode
    simp [hencode] at hthrew

theorem inserts_keys (hkeypad : input.keypadTypes mode = true) {text : JsString}
    (hinherited : text ∉ inheritedMembers) {codes : Codes}
    (hcodes : autoCorrectChar text = some codes) :
    (sends input (sendKeys codes)).Inserts charOf mode text input.lastContent := by
  refine ⟨fun t => ?_, rfl, hkeypad⟩
  unfold autoCorrectChar at hcodes
  split at hcodes
  · rename_i unit
    obtain ⟨entry, hentry, rfl⟩ := Option.map_eq_some_iff.mp hcodes
    obtain ⟨front, back, htable, -⟩ := List.lookup_eq_some_iff.mp hentry
    have hmem : (unit, entry) ∈ autoCorrectChars := by simp [htable]
    obtain ⟨htypes, hzero, hreturn⟩ := autoCorrectChars_type _ hmem
    simp only at htypes hzero hreturn
    simp [sends, onText, sendKeys, CursorText.receive, hzero, hreturn, htypes]
  · simp [hinherited] at hcodes

theorem inserts_sendCompositionEvent (hkeypad : input.keypadTypes mode = true)
    {text : JsString} (htypes : typesItself mode text = true)
    (hthrew : (sendCompositionEvent mode input text).threw = false) :
    (sendCompositionEvent mode input text).Inserts charOf mode text input.lastContent := by
  unfold sendCompositionEvent at hthrew ⊢
  cases hcodes : autoCorrectChar text with
  | none =>
      simp only [hcodes] at hthrew ⊢
      exact inserts_composition charOf hkeypad hthrew
  | some codes =>
      simp only [hcodes] at hthrew ⊢
      split
      · rename_i hmobile
        rw [if_pos hmobile] at hthrew
        exact inserts_composition charOf hkeypad hthrew
      · rename_i hdesktop
        have hinherited : text ∉ inheritedMembers := by
          simpa [typesItself, hdesktop] using htypes
        have hkeys := inserts_keys charOf hkeypad hinherited hcodes
        cases hseparator : mode.decimalSeparator with
        | none => exact hkeys
        | some separator =>
            have hpressed : input.numPadDecimalPressed = false := by
              simpa [keypadTypes, hseparator] using hkeypad
            simp only [hpressed]
            exact hkeys

theorem inserts_sendPart (hkeypad : input.keypadTypes mode = true) {part : JsString}
    (htypes : typesItself mode part = true) (hthrew : (sendPart mode input part).threw = false) :
    (sendPart mode input part).Inserts charOf mode part input.lastContent := by
  unfold sendPart at hthrew ⊢
  split
  · rename_i hpart
    rw [hpart]
    exact inserts_nothing charOf hkeypad
  · rename_i hpart
    rw [if_neg hpart] at hthrew
    exact inserts_sendCompositionEvent charOf hkeypad htypes hthrew

theorem inserts_lineBreak (hkeypad : input.keypadTypes mode = true) (unoKeyCode : Nat) :
    (sends input.emptyArea [.key (some 13) (some unoKeyCode) .input]).Inserts charOf mode [10] [] :=
  ⟨fun text => by simp [sends, onText, CursorText.receive], rfl, hkeypad⟩

theorem inserts_sendParts (hkeypad : input.keypadTypes mode = true) {parts : List JsString}
    (htypes : parts.all (typesItself mode) = true)
    (hthrew : (sendParts mode input parts).threw = false) :
    (sendParts mode input parts).Inserts charOf mode (parts.flatMap behindBreak)
      (if parts = [] then input.lastContent else []) := by
  induction parts generalizing input with
  | nil => exact inserts_nothing charOf hkeypad
  | cons part parts ih =>
      simp only [List.all_cons, Bool.and_eq_true] at htypes
      obtain ⟨hboth, hrest⟩ := andThen_threw.mp hthrew
      obtain ⟨hbreak, hpart⟩ := andThen_threw.mp hboth
      have hkey := inserts_lineBreak charOf hkeypad 1280
      have htyped := hkey.andThen (fun input => sendPart mode input part)
        (inserts_sendPart charOf hkey.keypad htypes.1 hpart) hbreak
      have hparts := htyped.andThen (fun input => sendParts mode input parts)
        (ih htyped.keypad htypes.2 hrest) hboth
      have hcontent : (if parts = [] then
          (((sends input.emptyArea [.key (some 13) (some 1280) .input]).andThen fun input =>
            sendPart mode input part).input).lastContent else []) = ([] : JsString) := by
        rw [htyped.content]
        split <;> rfl
      rw [hcontent] at hparts
      simpa [sendParts, behindBreak] using hparts

/-- The parts of the text that are sent. -/
def typesAll (mode : Mode) (text : JsString) : Bool :=
  (text.splitOnP isLineBreak).all (typesItself mode)

theorem inserts_sendText (hkeypad : input.keypadTypes mode = true) {text : JsString}
    (htypes : typesAll mode text = true) (hthrew : (sendText mode input text).threw = false) :
    (sendText mode input text).Inserts charOf mode (text.map lineFeed)
      (if text.any isLineBreak then [] else input.lastContent) := by
  unfold sendText at hthrew ⊢
  split
  · rename_i hbreak
    have hkeypad' : keypadTypes mode { input with newlineHint := false } = true := hkeypad
    have hnewline := inserts_lineBreak charOf hkeypad' (if input.linebreakHint then 5376 else 1280)
    rcases hbreak with rfl | rfl
    · exact hnewline
    · exact hnewline
  · rename_i hbreak
    rw [if_neg hbreak] at hthrew
    obtain ⟨part, parts, hsplit, htext, hnone⟩ := parts_of_splitOnP text
    simp only [typesAll, hsplit, List.all_cons, Bool.and_eq_true] at htypes
    simp only [hsplit] at hthrew ⊢
    obtain ⟨hpart, hparts⟩ := andThen_threw.mp hthrew
    have hfirst := inserts_sendPart charOf hkeypad htypes.1 hpart
    have hwhole := hfirst.andThen (fun input => sendParts mode input parts)
      (inserts_sendParts charOf hfirst.keypad htypes.2 hparts) hpart
    rw [htext, hfirst.content] at hwhole
    cases hany : text.any isLineBreak with
    | true =>
        have hne : parts ≠ [] := fun h => by simp [hnone.mp h] at hany
        simpa [hne] using hwhole
    | false => simpa [hnone.mpr hany] using hwhole

theorem isDigit_cases {newText : JsString} (h : isDigit newText = true) :
    ∃ digit, newText = [digit] ∧ digit.toNat ≠ 0 ∧ digit.toNat ≠ 13 ∧
      isLineBreak digit = false := by
  unfold isDigit at h
  split at h
  · rename_i digit
    simp only [Bool.and_eq_true, decide_eq_true_eq, UInt16.le_iff_toNat_le] at h
    have hlo : 48 ≤ digit.toNat := h.1
    refine ⟨digit, rfl, by omega, by omega, ?_⟩
    simp only [isLineBreak, Bool.or_eq_false_iff, beq_eq_false_iff_ne]
    constructor
    · rintro rfl
      exact absurd hlo (by decide)
    · rintro rfl
      exact absurd hlo (by decide)
  · cases h

theorem inserts_sendNewText (hkeypad : input.keypadTypes mode = true)
    {inputType : Option InputType} {content newText : JsString}
    (htypes : typesAll mode newText = true)
    (hthrew : (sendNewText mode input inputType content newText).threw = false) :
    (sendNewText mode input inputType content newText).Inserts charOf mode (newText.map lineFeed)
      (if newText.any isLineBreak then [] else input.lastContent) := by
  unfold sendNewText at hthrew ⊢
  split
  · rename_i hdigit
    obtain ⟨digit, rfl, hzero, hreturn, hbreak⟩ := isDigit_cases hdigit.2.2.2.1
    refine ⟨fun text => ?_, by simp [hbreak, sends], hkeypad⟩
    simp [sends, onText, CursorText.receive, hzero, hreturn, lineFeed, hbreak]
  · rename_i hplain
    rw [if_neg hplain] at hthrew
    exact inserts_sendText charOf hkeypad htypes hthrew

theorem inserts_sendDifference (hkeypad : input.keypadTypes mode = true)
    {inputType : Option InputType} {content newText : JsString}
    (htypes : typesAll mode newText = true)
    (hthrew : (sendDifference mode inputType content newText input).threw = false) :
    (sendDifference mode inputType content newText input).Inserts charOf mode (newText.map lineFeed)
      (if newText.any isLineBreak then [] else input.lastContent) := by
  unfold sendDifference at hthrew ⊢
  split
  · rename_i hnil
    rw [hnil]
    exact inserts_nothing charOf hkeypad
  · rename_i hne
    rw [if_neg hne] at hthrew
    exact inserts_sendNewText charOf hkeypad htypes hthrew

/-! ## What an event does -/

/-- The document becomes what it is when one types, and the area is compared next with the text that
can be changed. -/
structure Makes (charOf : UInt16 → α) (h : Handled) (e e' : Editor α) : Prop where
  onText : h.onText charOf (e.text charOf) = e'.text charOf
  area : h.input.lastContent = e'.area
  unbroken : e'.area.any isLineBreak = false

variable {e : Editor α}

/-- The part of a changed text that is sent. -/
def newText (input : TextInput) (content : JsString) : JsString :=
  content.drop (matchTo content input.lastContent)

/-- What is deleted behind the cursor has been the end of the area, and all that is sent types
itself. -/
def isPlain (mode : Mode) (input : TextInput) (content : JsString) : Bool :=
  (!input.deletesForward content || content = input.lastContent.dropLast) &&
    input.keypadTypes mode && typesAll mode (input.newText content)

/-- The end of the area gives way to what has been typed in its place. -/
theorem insert_newText (harea : input.lastContent = e.area)
    (hunbroken : e.area.any isLineBreak = false) (content : JsString) :
    ((e.text charOf).remove (e.area.length - matchTo content e.area) 0).insert
        (((input.newText content).map lineFeed).map charOf) = (e.write charOf content).text charOf ∧
      (e.write charOf content).area =
        (if (input.newText content).any isLineBreak then [] else content) ∧
      (e.write charOf content).area.any isLineBreak = false := by
  have htake := take_matchTo content e.area
  have hle := matchTo_le content e.area
  have hshared : (content.take (matchTo content e.area)).any isLineBreak = false := by
    rw [htake, List.any_eq_false]
    exact fun unit hunit => List.any_eq_false.mp hunbroken unit (List.mem_of_mem_take hunit)
  have hmap : content.map lineFeed =
      e.area.take (matchTo content e.area) ++ (input.newText content).map lineFeed := by
    conv_lhs => rw [← List.take_append_drop (matchTo content e.area) content]
    rw [List.map_append, map_lineFeed hshared, htake, newText, harea]
  have hany : content.any isLineBreak = (input.newText content).any isLineBreak := by
    conv_lhs => rw [← List.take_append_drop (matchTo content e.area) content]
    rw [List.any_append, hshared, Bool.false_or, newText, harea]
  have hremove : (e.text charOf).remove (e.area.length - matchTo content e.area) 0 =
      ⟨e.before ++ (e.area.take (matchTo content e.area)).map charOf, e.after⟩ := by
    have hlength : (e.before ++ e.area.map charOf).length -
        (e.area.length - matchTo content e.area) = e.before.length + matchTo content e.area := by
      rw [List.length_append, List.length_map]
      omega
    simp only [CursorText.remove, Editor.text, hlength, List.drop_zero,
      List.take_length_add_append, List.map_take]
  rw [hremove, CursorText.insert, List.append_assoc, ← List.map_append, ← hmap]
  unfold Editor.write
  cases hbreak : content.any isLineBreak with
  | true => simp [Editor.text, ← hany, hbreak]
  | false => simp [Editor.text, ← hany, hbreak, map_lineFeed hbreak]

theorem compareContent_makes (harea : input.lastContent = e.area)
    (hunbroken : e.area.any isLineBreak = false) {inputType : Option InputType}
    {content : JsString} (hplain : input.isPlain mode content = true)
    (hthrew : (compareContent mode input inputType content).threw = false) :
    Makes charOf (compareContent mode input inputType content) e
      (if input.deletesForward content then e.delete charOf else e.write charOf content) := by
  simp only [isPlain, Bool.and_eq_true] at hplain
  obtain ⟨⟨hforward, hkeypad⟩, htypes⟩ := hplain
  unfold compareContent at hthrew ⊢
  cases hdeletes : input.deletesForward content with
  | true =>
      have hcontent : content = input.lastContent.dropLast := by simpa [hdeletes] using hforward
      have hlast : input.lastContent ≠ [] := by
        intro hnil
        simp [deletesForward, hnil] at hdeletes
      have hshared : matchTo content input.lastContent = content.length := by
        have hmatch := matchTo_append content [input.lastContent.getLast hlast]
        rwa [hcontent, List.dropLast_append_getLast, ← hcontent] at hmatch
      have hlength : input.lastContent.length - content.length - 1 = 0 := by
        rw [hcontent, List.length_dropLast]
        omega
      constructor
      · simp [hshared, hlength, andThen, sends, sendDifference, onText, CursorText.receive,
          Editor.text, Editor.delete]
      · simp [hshared, andThen, sends, sendDifference, emptyArea, Editor.delete]
      · simp [Editor.delete]
  | false =>
      simp only [hdeletes, Bool.false_eq_true, if_false, Nat.sub_zero, Nat.lt_irrefl, or_false]
        at hthrew ⊢
      obtain ⟨htext, harea', hunbroken'⟩ := insert_newText charOf harea hunbroken content
      generalize hremoval : (sends { input with lastContent := content }
        (if 0 < input.lastContent.length - matchTo content input.lastContent then
          [Sent.removeTextContent (input.lastContent.length - matchTo content input.lastContent) 0]
        else [])) = h at hthrew ⊢
      have hinput : h.input = { input with lastContent := content } := by rw [← hremoval, sends]
      have honText : h.onText charOf (e.text charOf) =
          (e.text charOf).remove (e.area.length - matchTo content e.area) 0 := by
        rw [← hremoval, harea]
        split
        · rfl
        · rename_i hnone
          have hzero : e.area.length - matchTo content e.area = 0 := by omega
          simp [sends, onText, hzero]
      have hlast := (andThen_threw.mp hthrew).1
      obtain ⟨hfirst, hsend⟩ := andThen_threw.mp hlast
      have hsent := inserts_sendDifference charOf (hinput ▸ hkeypad) htypes hsend
      constructor
      · rw [andThen_onText hlast, andThen_onText hfirst, honText]
        exact (hsent.onText _).trans htext
      · rw [andThen_input hlast, andThen_input hfirst, harea']
        exact hsent.content.trans (by rw [hinput])
      · exact hunbroken'

/-! Where the area is emptied the text typed so far cannot be changed any more. -/

theorem makes_nothing (harea : input.lastContent = e.area)
    (hunbroken : e.area.any isLineBreak = false) : Makes charOf (sends input []) e e :=
  ⟨rfl, harea, hunbroken⟩

variable {charOf} in
theorem Makes.andThen {h : Handled} {e' e'' : Editor α} (hfirst : Makes charOf h e e')
    (next : TextInput → Handled) (hnext : Makes charOf (next h.input) e' e'')
    (hthrew : h.threw = false) :
    Makes charOf (h.andThen next) e e'' := by
  constructor
  · rw [andThen_onText hthrew, hfirst.onText, hnext.onText]
  · rw [andThen_input hthrew, hnext.area]
  · exact hnext.unbroken

theorem makes_commit (input : TextInput) (e : Editor α) :
    Makes charOf (sends input.emptyArea []) e (e.commit charOf) := by
  constructor
  · simp [sends, onText, Editor.text, Editor.commit]
  · rfl
  · rfl

theorem makes_backspace (input : TextInput) (e : Editor α) :
    Makes charOf (sends input.emptyArea [.removeTextContent 1 0]) e (e.backspace charOf) := by
  constructor
  · simp [sends, onText, CursorText.receive, CursorText.remove, Editor.text, Editor.backspace,
      List.dropLast_eq_take]
  · rfl
  · rfl

theorem makes_delete (input : TextInput) (e : Editor α) :
    Makes charOf (sends input.emptyArea [.removeTextContent 0 1]) e (e.delete charOf) := by
  constructor
  · simp [sends, onText, CursorText.receive, Editor.text, Editor.delete]
  · rfl
  · rfl

theorem makes_newline (input : TextInput) (e : Editor α) :
    Makes charOf (sendNewlineEvent input) e (e.newline charOf) := by
  constructor
  · simp [sendNewlineEvent, sends, onText, CursorText.receive, CursorText.insert, Editor.text,
      Editor.newline]
  · rfl
  · rfl

/-- The condition on a changed text area that is compared. -/
def isPlainChange (mode : Mode) (input : TextInput) (area : Area) (inputType : Option InputType) :
    Bool :=
  input.newlineHint || !area.hasPreSpace || !area.hasPostSpace ||
    isPlain mode { input with deleteHint := hintOf input.deleteHint inputType } area.value

theorem onInput_makes (harea : input.lastContent = e.area)
    (hunbroken : e.area.any isLineBreak = false) {area : Area} {inputType : Option InputType}
    (hplain : input.isPlainChange mode area inputType = true)
    (hthrew : (onInput mode input area inputType).threw = false) :
    Makes charOf (onInput mode input area inputType) e
      (e.change charOf mode input area inputType) := by
  unfold onInput at hthrew ⊢
  unfold Editor.change
  split
  · exact makes_nothing charOf harea hunbroken
  rename_i hblocked
  rw [if_neg hblocked] at hthrew
  dsimp only at hthrew ⊢
  split
  · exact makes_newline charOf _ e
  rename_i hnewline
  split
  · cases input.ignoreNextBackspace with
    | true => exact makes_commit charOf _ e
    | false => exact makes_backspace charOf _ e
  rename_i hpre
  split
  · exact makes_delete charOf _ e
  rename_i hpost
  rw [if_neg hnewline, if_neg hpre, if_neg hpost] at hthrew
  have hplain : isPlain mode { input with deleteHint := hintOf input.deleteHint inputType }
      area.value = true := by
    simpa [isPlainChange, hnewline, hpre, hpost] using hplain
  have harea' : TextInput.lastContent { input with
      deleteHint := hintOf input.deleteHint inputType
      ignoreNextBackspace := false } = e.area := harea
  have hmakes := compareContent_makes charOf harea' hunbroken hplain hthrew
  simpa [deletesForward, harea] using hmakes

theorem onBeforeInput_makes (harea : input.lastContent = e.area)
    (hunbroken : e.area.any isLineBreak = false) (selection : Selection)
    (inputType : Option InputType) :
    Makes charOf (onBeforeInput mode input selection inputType) e
      (e.beforeChange charOf mode input selection inputType) := by
  unfold onBeforeInput Editor.beforeChange
  split
  · exact makes_nothing charOf harea hunbroken
  dsimp only
  generalize hfirst : (if (!selection.isSelectionValid) = true then
      sends { input with ignoreNextBackspace := false }.emptyArea []
    else if (selection.isInitialContent && selection.isCursorAtBeginning) = true then
      { input with ignoreNextBackspace := false }.handleMisplacedCursorAtBeginning inputType
    else sends { input with ignoreNextBackspace := false } []) = first
  generalize hchange : (if (!selection.isSelectionValid) = true then e.commit charOf
    else if (selection.isInitialContent && selection.isCursorAtBeginning) = true then
      if inputType = some .deleteContentBackward then e.backspace charOf else e.commit charOf
    else e) = e₁
  have hmakes : Makes charOf first e e₁ ∧ first.threw = false ∧
      first.input.deleteHint = input.deleteHint := by
    rw [← hfirst, ← hchange]
    split
    · exact ⟨makes_commit charOf _ e, rfl, rfl⟩
    split
    · unfold handleMisplacedCursorAtBeginning
      split
      · exact ⟨makes_backspace charOf _ e, rfl, rfl⟩
      · exact ⟨makes_commit charOf _ e, rfl, rfl⟩
    · exact ⟨makes_nothing charOf harea hunbroken, rfl, rfl⟩
  obtain ⟨hmakes, hthrew, hhint⟩ := hmakes
  apply hmakes.andThen _ _ hthrew
  rw [hhint]
  split
  · exact makes_delete charOf _ e₁
  · exact makes_nothing charOf hmakes.area hmakes.unbroken

/-- The condition on an event. -/
def isPlainEvent (mode : Mode) (input : TextInput) : TextEvent → Bool
  | .input area inputType => input.isPlainChange mode area inputType
  | .compositionEnd data area =>
      isPlainChange mode
        (if data.getLast? = some 10 then { input with newlineHint := true } else input) area none
  | _ => true

theorem handle_makes (harea : input.lastContent = e.area)
    (hunbroken : e.area.any isLineBreak = false) {event : TextEvent}
    (hplain : input.isPlainEvent mode event = true)
    (hthrew : (input.handle mode event).threw = false) :
    Makes charOf (input.handle mode event) e (e.handle charOf mode input event) := by
  cases event with
  | keyDown keyCode shiftKey numPadDecimal =>
      refine makes_nothing charOf ?_ hunbroken
      unfold onKeyDown
      split
      · exact harea
      · exact harea
  | beforeInput selection inputType =>
      exact onBeforeInput_makes charOf harea hunbroken selection inputType
  | input area inputType => exact onInput_makes charOf harea hunbroken hplain hthrew
  | compositionEnd data area =>
      refine onInput_makes charOf ?_ hunbroken hplain hthrew
      split
      · exact harea
      · exact harea
  | emptyArea => exact makes_commit charOf input e

end TextInput

/-! ## Runs -/

/-- The text input, the document its messages have come to, and the document in which one types. -/
structure TypedDocument (α : Type) where
  input : TextInput
  text : CursorText α
  editor : Editor α
deriving DecidableEq, Repr

namespace TypedDocument

/-- A document with its cursor, and nothing typed. -/
def start (text : CursorText α) : TypedDocument α := ⟨.new, text, ⟨text.before, [], text.after⟩⟩

inductive Event (α : Type)
  | typed (mode : Mode) (event : TextEvent)
  /-- The cursor is somewhere else or the document has changed, and the area has been emptied: the
  arrow keys, undo and redo. -/
  | moved (text : CursorText α)
deriving DecidableEq, Repr

variable (charOf)

/-- An event that ends in no exception. -/
def step (s : TypedDocument α) : Event α → Option (TypedDocument α)
  | .typed mode event =>
      let h := s.input.handle mode event
      if h.threw then none
      else some ⟨h.input, h.onText charOf s.text, s.editor.handle charOf mode s.input event⟩
  | .moved text => some ⟨s.input.emptyArea, text, ⟨text.before, [], text.after⟩⟩

def isPlain (s : TypedDocument α) : Event α → Bool
  | .typed mode event => s.input.isPlainEvent mode event
  | .moved _ => true

/-- The document is the one in which one types, and the area is compared with the text that can be
changed. -/
structure Shown (s : TypedDocument α) : Prop where
  text : s.text = s.editor.text charOf
  area : s.input.lastContent = s.editor.area
  unbroken : s.editor.area.any isLineBreak = false

theorem shown_start (text : CursorText α) : (start text).Shown charOf :=
  ⟨by simp [start, Editor.text], rfl, rfl⟩

variable {charOf} in
theorem step_shown {s s' : TypedDocument α} {event : Event α}
    (hstep : stepIf (step charOf) isPlain s event = some s') (h : s.Shown charOf) :
    s'.Shown charOf := by
  obtain ⟨hplain, hstep⟩ := (stepIf_eq_some _).mp hstep
  cases event with
  | moved text =>
      cases hstep
      exact ⟨by simp [Editor.text], rfl, rfl⟩
  | typed mode event =>
      simp only [step] at hstep
      split at hstep
      · cases hstep
      · rename_i hthrew
        cases hstep
        have hmakes := TextInput.handle_makes charOf h.area h.unbroken hplain
          (Bool.eq_false_iff.mpr hthrew)
        exact ⟨by rw [h.text]; exact hmakes.onText, hmakes.area, hmakes.unbroken⟩

/-- Whatever is typed, corrected and deleted in the text area, its messages make the document the
one in which it was typed, and the area is compared next with what can be changed there. -/
theorem run_text {text : CursorText α} {events : List (Event α)} {s : TypedDocument α}
    (hrun : run (stepIf (step charOf) isPlain) (start text) events = some s) :
    s.text = s.editor.text charOf ∧ s.input.lastContent = s.editor.area := by
  have hshown := run_invariant (stepIf (step charOf) isPlain) (I := Shown charOf)
    (fun _ _ _ hstep h => step_shown hstep h) hrun (shown_start charOf text)
  exact ⟨hshown.text, hshown.area⟩

/-- The desktop, in a text document. -/
def writer : Mode := ⟨false, false, false, true, false, none⟩

/-- The area with both its ends. -/
def areaOf (text : String) : Area := ⟨true, true, jsString text.toList⟩

/-- A word that is corrected, a line break, and a backspace. -/
def corrections : List (Event UInt16) :=
  [.typed writer (.input (areaOf "helo") (some .other)),
    .typed writer (.input (areaOf "hello") (some .other)),
    .typed writer (.input (areaOf "hello ") (some .insertText)),
    .typed writer (.compositionEnd [] (areaOf "hello all\nof you")),
    .typed writer (.keyDown 8 false false),
    .typed writer (.input ⟨false, true, []⟩ (some .deleteContentBackward))]

theorem run_text_corrected : ∃ s : TypedDocument UInt16,
    run (stepIf (step id) isPlain) (start ⟨jsString "Dear ".toList, jsString "!".toList⟩)
      corrections = some s ∧
      s.text = ⟨jsString "Dear hello all\nof yo".toList, jsString "!".toList⟩ ∧
      s.text = s.editor.text id := by
  obtain ⟨s, hrun, htext⟩ := run_reaches (stepIf (step id) isPlain)
    (start ⟨jsString "Dear ".toList, jsString "!".toList⟩) corrections
    (P := fun s => s.text = ⟨jsString "Dear hello all\nof yo".toList, jsString "!".toList⟩)
    (by decide +kernel)
  exact ⟨s, hrun, htext, (run_text id hrun).1⟩

end TypedDocument

end Document

end CoolOnline.Browser.Typing
