import CoolOnline.Browser.TypedText
import CoolOnline.Kit.TextInput

/-! # Typed text on its way to the document

The messages of the browser's text input, combined in the Kit's queue, and what `ChildSession` of
`kit/ChildSession.cpp` does with them: the document in the Kit becomes the one in which one types in
the browser, however the messages and the turns of the Kit interleave.
-/

namespace CoolOnline.Kit

open StringVector COOLProtocol
open Browser.Typing (JsString Sent KeyType CursorText TextInput Mode TextEvent Editor TypedDocument
  isHighSurrogate isLowSurrogate characters encodeURIComponent escapeByte isComponentChar utf8)

/-! ## The document of LibreOfficeKit -/

inductive LokKeyEvent
  | keyInput
  | keyUp
deriving DecidableEq, Repr

inductive LokExtTextInput
  | textInput
  | textInputEnd
deriving DecidableEq, Repr

/-- The calls that a session makes for typed text, and what it does for its other commands. A text
is passed by its bytes, and a byte 0 ends it. -/
structure LokDocument (δ : Type) where
  postKeyEvent (type : LokKeyEvent) (charCode keyCode : Int) : δ → δ
  postWindowExtTextInputEvent (id : Int) (type : LokExtTextInput) (text : Payload) : δ → δ
  removeTextContext (id before after : Int) : δ → δ
  otherCommand (tokens : List Payload) : δ → δ

namespace ChildSession

variable {δ : Type} (lok : LokDocument δ) (poco : PocoURI)
variable (tokens : List Payload) (document : δ)

/-- `getTokenKeyword`, for the type of a key event. -/
def keyEventType (token : Payload) : Option LokKeyEvent :=
  (getTokenString token "type".toList).bind fun type =>
    let quoted := type.head? == some '\'' && type.getLast? == some '\''
    let type := if quoted then type.tail.dropLast else type
    if type = "input".toList then some .keyInput
    else if type = "up".toList then some .keyUp
    else none

/-- Ctrl+W, Ctrl+Tab, and the insert key while the overwrite mode is disabled. -/
def isIgnoredKey (type : LokKeyEvent) (charCode keyCode : Int) : Bool :=
  keyCode == 0x2216 || keyCode == 0x2502 ||
    (type == .keyInput && charCode == 0 && keyCode == 0x0505)

/-- `keyEvent` for the document; a syntax error changes nothing. -/
def keyEvent : δ :=
  match tokens with
  | [_, type, charCode, keyCode] =>
      match keyEventType type, getTokenInteger charCode "char".toList,
          getTokenInteger keyCode Word.key with
      | some type, some charCode, some keyCode =>
          if isIgnoredKey type charCode keyCode then document
          else lok.postKeyEvent type charCode keyCode document
      | _, _, _ => document
  | _ => document

def extTextInputEvent : δ :=
  match tokens with
  | _ :: id :: text :: _ =>
      match getTokenInteger id Word.id, (getTokenString text Word.text).bind (Uri.decode poco) with
      | some id, some decodedText =>
          if id < 0 then document
          else
            lok.postWindowExtTextInputEvent id .textInputEnd decodedText
              (lok.postWindowExtTextInputEvent id .textInput decodedText document)
      | _, _ => document
  | _ => document

def removeTextContext : δ :=
  match tokens with
  | _ :: id :: before :: after :: _ =>
      match getTokenInteger id Word.id, getTokenInteger before Word.before,
          getTokenInteger after Word.after with
      | some id, some before, some after =>
          if id < 0 then document else lok.removeTextContext id before after document
      | _, _, _ => document
  | _ => document

/-- `_handleInput` of a session whose document is loaded. -/
def handleInput : δ :=
  if equals tokens 0 Word.key then keyEvent lok tokens document
  else if equals tokens 0 Word.textinput then extTextInputEvent lok poco tokens document
  else if equals tokens 0 Word.removetextcontext then removeTextContext lok tokens document
  else lok.otherCommand tokens document

end ChildSession

/-- `Document::forwardToChild`, where the session is the only one. -/
def forwardToChild {δ : Type} (lok : LokDocument δ) (poco : PocoURI) (v : ViewId)
    (payload : Payload) (document : δ) : δ :=
  let tokens := tokenize payload ' '
  if tokens.head? = some v.token then
    let message := (payload.drop v.token.length).dropWhile (· == ' ')
    ChildSession.handleInput lok poco (tokenize message ' ') document
  else document

/-! ## Text and its bytes -/

/-- A code unit that is a character of its own, and no string ends with it. -/
def isPlainUnit (unit : UInt16) : Bool :=
  unit != 0 && !isHighSurrogate unit && !isLowSurrogate unit

def charOf (unit : UInt16) : Char := Char.ofNat unit.toNat

/-- A byte, as a character of a message. -/
def byteChar (byte : UInt8) : Char := Char.ofNat byte.toNat

theorem characters_of_plain {text : JsString} (h : text.all isPlainUnit = true) :
    characters text = some (text.map charOf) := by
  induction text with
  | nil => rfl
  | cons unit text ih =>
      simp only [List.all_cons, Bool.and_eq_true] at h
      obtain ⟨hunit, htext⟩ := h
      simp only [isPlainUnit, Bool.and_eq_true, Bool.not_eq_true'] at hunit
      rw [Browser.Typing.characters.eq_def]
      simp [hunit, ih htext, charOf]

theorem encodeURIComponent_of_plain {text : JsString} (h : text.all isPlainUnit = true) :
    encodeURIComponent text = some ((utf8 (text.map charOf)).flatMap escapeByte) := by
  rw [encodeURIComponent, characters_of_plain h, Option.map_some]

theorem unescape_escapeByte (byte : UInt8) (rest : Payload) :
    PocoURI.unescape (escapeByte byte ++ rest) =
      (PocoURI.unescape rest).map (byteChar byte :: ·) := by
  have hbyte : byte.toNat < 256 := byte.toNat_lt
  unfold escapeByte
  dsimp only
  split
  · rename_i hcomponent
    have hc : Char.ofNat byte.toNat ≠ '%' := by
      intro heq
      rw [heq] at hcomponent
      exact absurd hcomponent (by decide)
    rw [List.singleton_append, PocoURI.unescape.eq_def]
    simp only [hc, if_false]
    rfl
  · have hhi := PocoURI.hexDigitFromChar_upperDigit (d := byte.toNat / 16) (by omega)
    have hlo := PocoURI.hexDigitFromChar_upperDigit (d := byte.toNat % 16) (by omega)
    have hwhole : byte.toNat / 16 * 16 + byte.toNat % 16 = byte.toNat := Nat.div_add_mod' _ _
    rw [PocoURI.unescape.eq_def]
    simp only [List.cons_append, List.nil_append, if_true, hhi, hlo, Option.bind_some,
      Option.bind_eq_bind, hwhole]
    cases PocoURI.unescape rest <;> rfl

theorem unescape_escapeBytes (bytes : List UInt8) :
    PocoURI.unescape (bytes.flatMap escapeByte) = some (bytes.map byteChar) := by
  induction bytes with
  | nil => rfl
  | cons byte bytes ih =>
      rw [List.flatMap_cons, unescape_escapeByte, ih]
      rfl

theorem toNat_byteChar (byte : UInt8) : (byteChar byte).toNat = byte.toNat := by
  have hvalid : byte.toNat.isValidChar := .inl (Nat.lt_trans byte.toNat_lt (by decide))
  rw [byteChar, Char.ofNat, dif_pos hvalid]
  rfl

/-- What is written in the place of a byte. -/
theorem of_mem_escapeByte {byte : UInt8} {c : Char} (hc : c ∈ escapeByte byte) :
    isComponentChar c = true ∨ c = '%' ∨ ∃ d < 16, c = PocoURI.upperDigit d := by
  have hbyte : byte.toNat < 256 := byte.toNat_lt
  unfold escapeByte at hc
  dsimp only at hc
  split at hc
  · rename_i hcomponent
    rw [List.mem_singleton] at hc
    exact .inl (hc ▸ hcomponent)
  · simp only [List.mem_cons, List.not_mem_nil, or_false] at hc
    rcases hc with rfl | rfl | rfl
    · exact .inr (.inl rfl)
    · exact .inr (.inr ⟨_, by omega, rfl⟩)
    · exact .inr (.inr ⟨_, by omega, rfl⟩)

theorem isValue_escapeBytes (bytes : List UInt8) : IsValue (bytes.flatMap escapeByte) := by
  intro c hc
  obtain ⟨byte, -, hc⟩ := List.mem_flatMap.mp hc
  have hdigits : ∀ d : Fin 16,
      PocoURI.upperDigit d.val ≠ ' ' ∧ PocoURI.upperDigit d.val ≠ '\n' := by decide
  rcases of_mem_escapeByte hc with hcomponent | rfl | ⟨d, hd, rfl⟩
  · constructor
    · rintro rfl
      exact absurd hcomponent (by decide)
    · rintro rfl
      exact absurd hcomponent (by decide)
  · decide
  · exact hdigits ⟨d, hd⟩

/-! ## Messages -/

/-- The keys of printable characters. -/
def IsTypingKey (charCode keyCode : Nat) : Prop :=
  32 ≤ charCode ∧ charCode < 127 ∧ (keyCode = 0 ∨ 96 ≤ keyCode ∧ keyCode ≤ 105)

/-- Return, without and with the shift key. -/
def IsReturnKey (charCode keyCode : Nat) : Prop :=
  charCode = 13 ∧ (keyCode = 1280 ∨ keyCode = 5376)

/-- A text of characters that are code units, and keys of characters. -/
def IsSound : Sent → Prop
  | .removeTextContent _ _ => True
  | .composition text => text.all isPlainUnit = true
  | .key (some charCode) (some unoKeyCode) .input =>
      IsTypingKey charCode unoKeyCode ∨ IsReturnKey charCode unoKeyCode
  | .key (some charCode) (some unoKeyCode) .up => charCode = 0 ∧ unoKeyCode < 0x2000
  | .key charCode unoKeyCode _ => charCode = none ∧ unoKeyCode = none

section Messages

variable (v : ViewId) (winId : Nat)

/-- The encoded text of a message. -/
def encoded (text : JsString) : Payload := (encodeURIComponent text).getD []

def token (name value : Payload) : Payload := name ++ ['='] ++ value

/-- The tokens of a message of the document's window. -/
def tokensOf : Sent → List Payload
  | .removeTextContent before after =>
      [Word.removetextcontext, token Word.id (Text.decimal winId),
        token Word.before (Text.decimal before), token Word.after (Text.decimal after)]
  | .composition text =>
      [Word.textinput, token Word.id (Text.decimal winId), token Word.text (encoded text)]
  | .key charCode unoKeyCode type =>
      [Word.key, token "type".toList type.word,
        token "char".toList (Browser.Typing.printNumber charCode),
        token Word.key (Browser.Typing.printNumber unoKeyCode)]

/-- A key event is a line. -/
def lineEnd : Sent → Payload
  | .key _ _ _ => ['\n']
  | .removeTextContent _ _ => []
  | .composition _ => []

/-- A message of the session's client in the Kit's queue. -/
def payload (m : Sent) : Payload :=
  v.token ++ ' ' :: [' '].intercalate (tokensOf winId m) ++ lineEnd m

variable {v winId} {m : Sent}

theorem message_of_isSound (h : IsSound m) :
    (m.message winId true).map v.message = some (payload v winId m) := by
  cases m with
  | removeTextContent before after =>
      simp [Sent.message, payload, tokensOf, lineEnd, token, ViewId.message, Word.id, Word.before,
        Word.after, Word.removetextcontext, List.intercalate_cons_cons]
  | composition text =>
      have hencode := encodeURIComponent_of_plain h
      simp [Sent.message, payload, tokensOf, lineEnd, token, encoded, hencode, ViewId.message,
        Word.id, Word.text, Word.textinput, List.intercalate_cons_cons]
  | key charCode unoKeyCode type =>
      simp [Sent.message, Sent.keyCommand, payload, tokensOf, lineEnd, token, ViewId.message,
        Word.key, List.intercalate_cons_cons]

theorem isValue_printNumber (n : Option Nat) : IsValue (Browser.Typing.printNumber n) := by
  cases n with
  | none =>
      have hall : "undefined".toList.all (fun c => c != ' ' && c != '\n') = true := by decide
      intro c hc
      simpa using List.all_eq_true.mp hall c hc
  | some n => exact isValue_decimal n

theorem isValue_encoded {text : JsString} (h : text.all isPlainUnit = true) :
    IsValue (encoded text) := by
  rw [encoded, encodeURIComponent_of_plain h, Option.getD_some]
  exact isValue_escapeBytes _

variable (winId) in
theorem isToken_tokensOf (h : IsSound m) : ∀ t ∈ tokensOf winId m, IsToken t := by
  intro t ht
  cases m with
  | removeTextContent before after =>
      simp only [tokensOf, List.mem_cons, List.not_mem_nil, or_false] at ht
      rcases ht with rfl | rfl | rfl | rfl
      · decide
      · exact InputEvent.isToken_named (by decide) (isValue_decimal _)
      · exact InputEvent.isToken_named (by decide) (isValue_decimal _)
      · exact InputEvent.isToken_named (by decide) (isValue_decimal _)
  | composition text =>
      simp only [tokensOf, List.mem_cons, List.not_mem_nil, or_false] at ht
      rcases ht with rfl | rfl | rfl
      · decide
      · exact InputEvent.isToken_named (by decide) (isValue_decimal _)
      · exact InputEvent.isToken_named (by decide) (isValue_encoded h)
  | key charCode unoKeyCode type =>
      simp only [tokensOf, List.mem_cons, List.not_mem_nil, or_false] at ht
      rcases ht with rfl | rfl | rfl | rfl
      · decide
      · cases type <;> decide
      · exact InputEvent.isToken_named (by decide) (isValue_printNumber _)
      · exact InputEvent.isToken_named (by decide) (isValue_printNumber _)

/-- The end of the line is no part of a token. -/
theorem tokenize_lineEnd {text : Payload} (h : '\n' ∉ text) (hne : text ≠ []) :
    tokenize (text ++ lineEnd m) ' ' = tokenize text ' ' := by
  cases m with
  | key charCode unoKeyCode type =>
      have hall : ∀ c ∈ text, (c != '\n') = true := by
        intro c hc
        have hcne : c ≠ '\n' := fun heq => h (heq ▸ hc)
        simpa using hcne
      have hhead : (text ++ ['\n']).head? = text.head? := List.head?_append_of_ne_nil text hne
      simp only [tokenize, lineEnd, hhead, List.takeWhile_append_of_pos hall,
        List.takeWhile_eq_self_iff.mpr hall]
      simp
  | removeTextContent before after => rw [lineEnd, List.append_nil]
  | composition text => rw [lineEnd, List.append_nil]

theorem tokensOf_ne_nil : tokensOf winId m ≠ [] := by
  cases m <;> simp [tokensOf]

/-- The tokens of a message are a line. -/
theorem not_mem_intercalate {tokens : List Payload} (h : ∀ t ∈ tokens, IsToken t) :
    '\n' ∉ [' '].intercalate tokens := by
  intro hmem
  rcases Text.mem_intercalate hmem with hsep | ⟨t, ht, hc⟩
  · exact absurd hsep (by decide)
  · exact (h t ht).2 hc

theorem tokenize_payload (h : IsSound m) :
    tokenize (payload v winId m) ' ' = v.token :: tokensOf winId m := by
  have htokens := isToken_tokensOf winId h
  have hline : '\n' ∉ v.token ++ ' ' :: [' '].intercalate (tokensOf winId m) := by
    have hmessage := not_mem_intercalate htokens
    have htoken := v.isToken_token.2
    simp [htoken, hmessage]
  rw [payload, tokenize_lineEnd hline (by simp)]
  exact v.tokenize_command _ htokens tokensOf_ne_nil

variable (winId m) in
/-- A message begins with its command. -/
theorem head_intercalate_tokensOf :
    ∃ c rest, [' '].intercalate (tokensOf winId m) = c :: rest ∧ c ≠ ' ' ∧ c ≠ '\x00' := by
  cases m with
  | removeTextContent before after =>
      exact ⟨'r', _, by simp [tokensOf, List.intercalate_cons_cons, Word.removetextcontext]; rfl,
        by decide⟩
  | composition text =>
      exact ⟨'t', _, by simp [tokensOf, List.intercalate_cons_cons, Word.textinput]; rfl,
        by decide⟩
  | key charCode unoKeyCode type =>
      exact ⟨'k', _, by simp [tokensOf, List.intercalate_cons_cons, Word.key]; rfl, by decide⟩

/-- What a session is given of its message. -/
theorem forwardToChild_payload {δ : Type} (lok : LokDocument δ)
    (poco : PocoURI) (h : IsSound m) (document : δ) :
    forwardToChild lok poco v (payload v winId m) document =
      ChildSession.handleInput lok poco (tokensOf winId m) document := by
  have htokens := isToken_tokensOf winId h
  obtain ⟨c, rest, hmessage, hblank, hnul⟩ := head_intercalate_tokensOf winId m
  have hdrop : (payload v winId m).drop v.token.length =
      ' ' :: ([' '].intercalate (tokensOf winId m) ++ lineEnd m) := by
    rw [payload, List.append_assoc, List.drop_left]
    rfl
  have hwhile : (' ' :: ([' '].intercalate (tokensOf winId m) ++ lineEnd m)).dropWhile (· == ' ') =
      [' '].intercalate (tokensOf winId m) ++ lineEnd m := by
    simp [hmessage, hblank]
  have hhead : ([' '].intercalate (tokensOf winId m)).head? ≠ some '\x00' := by
    simpa [hmessage] using hnul
  have htokenize : tokenize ([' '].intercalate (tokensOf winId m) ++ lineEnd m) ' ' =
      tokensOf winId m := by
    rw [tokenize_lineEnd (not_mem_intercalate htokens) (by simp [hmessage])]
    exact tokenize_intercalate htokens hhead
  unfold forwardToChild
  simp only [tokenize_payload h, List.head?_cons, if_true, hdrop, hwhile, htokenize]

end Messages

/-! ## Fields -/

theorem isInt32_of_lt {n : Nat} (h : n < 2 ^ 31) : IsInt32 n := by
  unfold IsInt32
  omega

theorem getTokenInteger_token {name : Payload} {n : Int} (h : IsInt32 n) :
    getTokenInteger (token name (Text.decimal n)) name = some n := by
  simp [getTokenInteger, token, strtol_decimal h, toInt32_of_isInt32 h]

theorem getTokenString_token (name value : Payload) :
    getTokenString (token name value) name = some value := by
  simp [getTokenString, token]

/-! ## Queued messages -/

/-- How many characters a message removes. -/
def counts : Sent → Nat
  | .removeTextContent before after => before + after
  | .composition _ => 0
  | .key _ _ _ => 0

section Queue

/-- The search for a field passes the rest of a word. -/
theorem searchToken_word {name word : Payload} (hname : ' ' ∉ name) (hne : name ≠ [])
    (hword : ' ' ∉ word) {c : Char} (hc : c ≠ ' ') {skip : Nat} (hskip : skip ≤ word.length)
    (rest : Payload) :
    searchToken name (some c) skip (word ++ ' ' :: rest) = searchToken name (some ' ') 0 rest := by
  induction word generalizing c skip with
  | nil =>
      obtain rfl : skip = 0 := Nat.le_zero.mp hskip
      obtain ⟨first, name, rfl⟩ := List.exists_cons_of_ne_nil hne
      have hfirst : first ≠ ' ' := fun h => hname (by simp [h])
      simp [searchToken, hfirst]
  | cons d word ih =>
      obtain ⟨hd, hword⟩ : d ≠ ' ' ∧ ' ' ∉ word := by simpa [eq_comm] using hword
      cases skip with
      | succ skip => exact ih hword hd (Nat.le_of_succ_le_succ hskip)
      | zero =>
          rw [List.cons_append, searchToken]
          split
          · rename_i hprefix
            -- the name is over in front of the blank
            have hlength : name.length ≤ word.length + 1 := by
              by_contra hlt
              have hfront : d :: word ++ [' '] <+: name :=
                List.prefix_of_prefix_length_le ⟨rest, by simp⟩
                  (List.isPrefixOf_iff_prefix.mp hprefix) (by simp; omega)
              exact hname (hfront.subset (by simp))
            rw [if_neg (by simp [hc]), ih hword hd (by omega)]
          · exact ih hword hd (Nat.zero_le _)

theorem searchToken_other {name t : Payload} (hname : ' ' ∉ name) (hne : name ≠ []) (ht : IsToken t)
    (hhead : t.head? ≠ name.head?) (before : Option Char) (rest : Payload) :
    searchToken name before 0 (t ++ ' ' :: rest) = searchToken name (some ' ') 0 rest := by
  obtain ⟨c, word, rfl⟩ := List.exists_cons_of_ne_nil ht.1.1
  obtain ⟨first, name, rfl⟩ := List.exists_cons_of_ne_nil hne
  have hblank := ht.1.2
  rw [List.mem_cons, not_or] at hblank
  have hfirst : first ≠ c := fun h => hhead (by simp [h])
  rw [List.cons_append, searchToken, if_neg (by simp [hfirst])]
  exact searchToken_word hname hne hblank.2 (Ne.symm hblank.1) (Nat.zero_le _) rest

/-- A message whose third token is the first with the name. -/
theorem getTokenStringFromMessage_third {first second name value : Payload} (back : Payload)
    (hfirst : IsToken first) (hsecond : IsToken second) (hvalue : IsValue value)
    (hname : ' ' ∉ name) (hne : name ≠ []) (hhead : first.head? ≠ name.head?)
    (hhead' : second.head? ≠ name.head?) :
    getTokenStringFromMessage (first ++ ' ' :: (second ++ ' ' :: (token name value ++ ' ' :: back)))
      name = some value := by
  have hall : ∀ c ∈ value, (c != ' ' && c != '\n') = true := by
    intro c hc
    simpa using hvalue c hc
  have htakeWhile : (value ++ ' ' :: back).takeWhile (fun c => c != ' ' && c != '\n') = value := by
    rw [List.takeWhile_append_of_pos hall]
    simp
  rw [getTokenStringFromMessage, if_pos (by simp [token]; omega),
    searchToken_other hname hne hfirst hhead, searchToken_other hname hne hsecond hhead']
  obtain ⟨c, name, rfl⟩ := List.exists_cons_of_ne_nil hne
  simp [token, searchToken, htakeWhile]

variable (v : ViewId) (winId : Nat)

/-- Two neighbours in one: texts, and counts. -/
def joinSent : Sent → Sent → Option Sent
  | .composition text, .composition text' => some (.composition (text ++ text'))
  | .removeTextContent before after, .removeTextContent before' after' =>
      some (.removeTextContent (before + before') (after + after'))
  | _, _ => none

/-- A message behind others, joined to the newest if it can be. -/
def push (queue : List Sent) (m : Sent) : List Sent :=
  match queue.getLast?.bind fun newest => joinSent newest m with
  | some joined => queue.dropLast ++ [joined]
  | none => queue ++ [m]

variable {v winId} {m newest : Sent}

theorem payload_eq_message :
    payload v winId m = v.message ([' '].intercalate (tokensOf winId m) ++ lineEnd m) := by
  simp [payload, ViewId.message]

theorem drop_payload :
    (payload v winId m).drop ((getFirstToken (payload v winId m)).length + 1) =
      [' '].intercalate (tokensOf winId m) ++ lineEnd m := by
  rw [payload_eq_message, v.firstToken_message, ViewId.message, ← List.drop_drop, List.drop_left]
  rfl

theorem length_payload :
    ¬ (payload v winId m).length < (getFirstToken (payload v winId m)).length + 3 := by
  have hlength : 2 ≤ ([' '].intercalate (tokensOf winId m)).length := by
    cases m <;> simp [tokensOf, List.intercalate_cons_cons, Word.removetextcontext, Word.textinput,
      Word.key]
  rw [payload_eq_message, v.firstToken_message, ViewId.message]
  simp only [List.length_append, List.length_cons]
  omega

theorem startsAs_of_ne {c d : Char} (h : c ≠ d) (rest word : Payload) :
    startsAs (c :: rest) (d :: word) = false := by
  simp [startsAs, Nat.add_min_add_right, h]

/-- Text input, and whether it removes text. -/
theorem textItem_payload :
    textItem (payload v winId m) (getFirstToken (payload v winId m)) =
      match m with
      | .composition _ => some false
      | .removeTextContent _ _ => some true
      | .key _ _ _ => none := by
  rw [textItem, if_neg length_payload, drop_payload]
  cases m with
  | composition text => simp [startsAs, tokensOf, List.intercalate_cons_cons, Word.textinput]
  | removeTextContent before after =>
      simp [startsAs, tokensOf, List.intercalate_cons_cons, Word.textinput, Word.removetextcontext]
  | key charCode unoKeyCode type =>
      simp [startsAs_of_ne, tokensOf, List.intercalate_cons_cons, Word.textinput,
        Word.removetextcontext, Word.key]

theorem combination_key (charCode unoKeyCode : Option Nat) (type : KeyType) :
    combination (payload v winId (.key charCode unoKeyCode type)) = none := by
  rw [combination, textItem_payload, Option.bind_none]

theorem tokenString_id (command : Payload) (hcommand : getTokenString command Word.id = none)
    (tokens : List Payload) :
    tokenString (v.token :: command :: token Word.id (Text.decimal winId) :: tokens) Word.id =
      some (Text.decimal winId) := by
  have htoken : getTokenString v.token Word.id = none := by
    simp [getTokenString, ViewId.token, Word.id]
  rw [tokenString_cons, htoken, Option.none_or, tokenString_cons, hcommand, Option.none_or,
    tokenString_cons, getTokenString_token, Option.some_or]

theorem tokenString_text {text : JsString} :
    tokenString (v.token :: tokensOf winId (.composition text)) Word.text =
      some (encoded text) := by
  simp [tokensOf, tokenString_cons, getTokenString, ViewId.token, token, Word.id, Word.text,
    Word.textinput]

theorem combination_composition {text : JsString} (h : text.all isPlainUnit = true) :
    combination (payload v winId (.composition text)) =
      some ⟨stopsTextInput (v.token :: tokensOf winId (.composition text)),
        mergeTextInput (v.token :: tokensOf winId (.composition text)) (Text.decimal winId)
          (encoded text)⟩ := by
  have hsound : IsSound (.composition text) := h
  have hid : tokenString (v.token :: tokensOf winId (.composition text)) Word.id =
      some (Text.decimal winId) := tokenString_id _ (by decide) _
  rw [combination, textItem_payload, tokenize_payload hsound]
  simp only [Option.bind_some, Bool.false_eq_true, if_false, textInputCombination, hid,
    tokenString_text, Option.map_some]

section Counts

variable {before after : Nat}

variable (v winId after) in
theorem tokenInteger_before (h : before < 2 ^ 31) :
    tokenInteger (v.token :: tokensOf winId (.removeTextContent before after)) Word.before =
      some (before : Int) := by
  have hbefore := isInt32_of_lt h
  simp [tokensOf, tokenInteger_cons, getTokenInteger, ViewId.token, token, strtol_decimal hbefore,
    toInt32_of_isInt32 hbefore, Word.removetextcontext, Word.id, Word.before]

variable (v winId before) in
theorem tokenInteger_after (h : after < 2 ^ 31) :
    tokenInteger (v.token :: tokensOf winId (.removeTextContent before after)) Word.after =
      some (after : Int) := by
  have hafter := isInt32_of_lt h
  simp [tokensOf, tokenInteger_cons, getTokenInteger, ViewId.token, token, strtol_decimal hafter,
    toInt32_of_isInt32 hafter, Word.removetextcontext, Word.id, Word.before, Word.after]

theorem combination_removeTextContent (hbefore : before < 2 ^ 31) (hafter : after < 2 ^ 31) :
    combination (payload v winId (.removeTextContent before after)) =
      some ⟨stopsRemoveText (v.token :: tokensOf winId (.removeTextContent before after)),
        mergeRemoveText (v.token :: tokensOf winId (.removeTextContent before after))
          (Text.decimal winId) before after⟩ := by
  have hsound : IsSound (.removeTextContent before after) := trivial
  have hid : tokenString (v.token :: tokensOf winId (.removeTextContent before after)) Word.id =
      some (Text.decimal winId) := tokenString_id _ (by decide) _
  rw [combination, textItem_payload, tokenize_payload hsound]
  simp only [Option.bind_some, if_true, removeTextCombination, hid, Option.map_some,
    tokenInteger_before v winId after hbefore, tokenInteger_after v winId before hafter]

end Counts

/-- The search stops at a message of the session with one of the commands. -/
theorem stopsAt_payload (hsound : IsSound newest) (tokens commands : List Payload) :
    stopsAt (v.token :: tokens) commands (payload v winId newest) =
      commands.any fun command => (tokensOf winId newest).head? == some command := by
  have hlength : (v.token :: tokensOf winId newest).length ≠ 1 := by
    cases newest <;> simp [tokensOf]
  rw [stopsAt, tokenize_payload hsound]
  simp only [beq_eq_false_iff_ne.mpr hlength, sameSession, equals, Bool.false_or]
  simp [List.head?_eq_getElem?]

theorem sameSession_cons (token : Payload) (queuedTokens tokens : List Payload) :
    sameSession (token :: queuedTokens) (token :: tokens) = true := by
  simp [sameSession]

/-- Queued and new texts of the window are one. -/
theorem mergeTextInput_payload {text text' : JsString} (h : text.all isPlainUnit = true)
    (h' : text'.all isPlainUnit = true) :
    mergeTextInput (v.token :: tokensOf winId (.composition text')) (Text.decimal winId)
        (encoded text') (payload v winId (.composition text)) =
      some (payload v winId (.composition (text ++ text'))) := by
  have hsound : IsSound (.composition text) := h
  have hboth : (text ++ text').all isPlainUnit = true := by
    rw [List.all_append, h, h']
    rfl
  have hid : tokenString (v.token :: tokensOf winId (.composition text)) Word.id =
      some (Text.decimal winId) := tokenString_id _ (by decide) _
  have hencoded : encoded (text ++ text') = encoded text ++ encoded text' := by
    simp only [encoded, encodeURIComponent_of_plain h, encodeURIComponent_of_plain h',
      encodeURIComponent_of_plain hboth, Option.getD_some, List.map_append, utf8,
      List.flatMap_append]
  have hcommand : equals (v.token :: tokensOf winId (.composition text)) 1 Word.textinput := by
    simp [equals, tokensOf]
  simp only [mergeTextInput, tokenize_payload hsound, sameSession_cons, hcommand, hid,
    tokenString_text, beq_self_eq_true, Bool.and_self, if_true, Option.map_some, Option.some.injEq]
  simp [payload, tokensOf, lineEnd, token, hencoded, List.intercalate_cons_cons, Word.textinput,
    Word.id, Word.text]

/-- Queued and new counts of the window are added. -/
theorem mergeRemoveText_payload {before after before' after' : Nat}
    (hbefore : before + before' < 2 ^ 31) (hafter : after + after' < 2 ^ 31) :
    mergeRemoveText (v.token :: tokensOf winId (.removeTextContent before' after'))
        (Text.decimal winId) before' after' (payload v winId (.removeTextContent before after)) =
      some (payload v winId (.removeTextContent (before + before') (after + after'))) := by
  have hsound : IsSound (.removeTextContent before after) := trivial
  have hid : getTokenStringFromMessage (payload v winId (.removeTextContent before after)) Word.id =
      some (Text.decimal winId) := by
    have hcommand : IsToken Word.removetextcontext := by decide
    have hhead : v.token.head? ≠ Word.id.head? := by simp [ViewId.token, Word.id]
    rw [← getTokenStringFromMessage_third (token Word.before (Text.decimal before) ++ ' ' ::
      token Word.after (Text.decimal after)) v.isToken_token hcommand (isValue_decimal winId)
      (by decide) (by decide) hhead (by decide)]
    simp [payload, tokensOf, lineEnd, List.intercalate_cons_cons]
  have hsum {m n : Nat} (h : m + n < 2 ^ 31) : toInt32 ((m : Int) + n) = (m + n : Nat) := by
    rw [← Nat.cast_add]
    exact toInt32_of_isInt32 (isInt32_of_lt h)
  have hcommand : equals (v.token :: tokensOf winId (.removeTextContent before after)) 1
      Word.removetextcontext = true := by
    simp [equals, tokensOf]
  simp only [mergeRemoveText, getTokenIntegerFromMessage, tokenize_payload hsound,
    sameSession_cons, hcommand, hid, beq_self_eq_true, Bool.and_self, if_true,
    tokenInteger_before v winId after (show before < 2 ^ 31 by omega),
    tokenInteger_after v winId before (show after < 2 ^ 31 by omega),
    Option.bind_some, Option.map_some, hsum hbefore, hsum hafter, Option.some.injEq]
  simp [payload, tokensOf, lineEnd, token, List.intercalate_cons_cons, Word.removetextcontext,
    Word.id, Word.before, Word.after]

/-! The search for a message to combine with begins with the newest, and ends there. -/

theorem stopsTextInput_payload (hsound : IsSound newest) (tokens : List Payload) (text : JsString) :
    stopsTextInput (v.token :: tokens) (payload v winId newest) =
      (joinSent newest (.composition text)).isNone := by
  rw [stopsTextInput, stopsAt_payload hsound]
  cases newest <;>
    simp [tokensOf, joinSent, Word.textinput, Word.key, Word.mouse, Word.removetextcontext,
      Word.windowkey]

theorem stopsRemoveText_payload (hsound : IsSound newest) (tokens : List Payload)
    (before after : Nat) :
    stopsRemoveText (v.token :: tokens) (payload v winId newest) =
      (joinSent newest (.removeTextContent before after)).isNone := by
  rw [stopsRemoveText, stopsAt_payload hsound]
  cases newest <;>
    simp [tokensOf, joinSent, Word.textinput, Word.key, Word.mouse, Word.removetextcontext,
      Word.windowkey]

theorem combine_newest {c : Combination}
    (hstops : c.stops (payload v winId newest) = (joinSent newest m).isNone)
    (hmerge : ∀ joined, joinSent newest m = some joined →
      c.merge (payload v winId newest) = some (payload v winId joined)) (older : List Payload) :
    combine (older ++ [payload v winId newest]) c =
      (joinSent newest m).map fun joined => (older, payload v winId joined) := by
  cases hjoin : joinSent newest m with
  | none => simp [combine, searchBack, hstops, hjoin]
  | some joined => simp [combine, searchBack, hstops, hjoin, hmerge joined hjoin]

theorem combine_payload (hnewest : IsSound newest) (hm : IsSound m)
    (hcounts : counts newest + counts m < 2 ^ 31) (older : List Payload) :
    (combination (payload v winId m)).bind (combine (older ++ [payload v winId newest])) =
      (joinSent newest m).map fun joined => (older, payload v winId joined) := by
  cases m with
  | key charCode unoKeyCode type =>
      have hnone : joinSent newest (.key charCode unoKeyCode type) = none := by
        cases newest <;> rfl
      rw [combination_key, Option.bind_none, hnone, Option.map_none]
  | composition text' =>
      rw [combination_composition hm, Option.bind_some]
      apply combine_newest (stopsTextInput_payload hnewest _ text')
      intro joined hjoin
      cases newest with
      | composition text =>
          cases hjoin
          exact mergeTextInput_payload hnewest hm
      | removeTextContent before after => cases hjoin
      | key charCode unoKeyCode type => cases hjoin
  | removeTextContent before' after' =>
      have hsum : counts newest + (before' + after') < 2 ^ 31 := hcounts
      rw [combination_removeTextContent (by omega) (by omega), Option.bind_some]
      apply combine_newest (stopsRemoveText_payload hnewest _ before' after')
      intro joined hjoin
      cases newest with
      | removeTextContent before after =>
          cases hjoin
          have hsum : before + after + (before' + after') < 2 ^ 31 := hcounts
          exact mergeRemoveText_payload (by omega) (by omega)
      | composition text => cases hjoin
      | key charCode unoKeyCode type => cases hjoin

/-- A message is joined to the newest of the session's messages or comes behind it, and none is
passed. -/
theorem put_payload {queue : List Sent} (hqueue : ∀ q ∈ queue, IsSound q) (hm : IsSound m)
    (hcounts : ∀ q ∈ queue, counts q + counts m < 2 ^ 31) :
    put (queue.map (payload v winId)) (payload v winId m) =
      some ((push queue m).map (payload v winId)) := by
  have hput := put_eq (queue.map (payload v winId)) (v.message_ne_nil _)
    (v.isQueuedApart_message ([' '].intercalate (tokensOf winId m) ++ lineEnd m))
  rw [← payload_eq_message] at hput
  rw [hput]
  rcases queue.eq_nil_or_concat with rfl | ⟨older, newest, rfl⟩
  · cases combination (payload v winId m) <;> rfl
  rw [List.concat_eq_append] at *
  rw [List.map_append, List.map_singleton,
    combine_payload (hqueue newest (by simp)) hm (hcounts newest (by simp))]
  cases hjoin : joinSent newest m with
  | none => simp [push, hjoin]
  | some joined => simp [push, hjoin]

end Queue

/-! ## What the document becomes -/

section Calls

variable {δ : Type}

/-- What is documented of the document's calls, for the text at the cursor of the session's view
while nothing is selected and nothing is corrected automatically. -/
structure LokDocument.Types (lok : LokDocument δ) (textAt : δ → CursorText Char) (winId : Nat) :
    Prop where
  composed (text : List Char) (h : '\x00' ∉ text) (document : δ) :
    textAt (lok.postWindowExtTextInputEvent winId .textInputEnd ((utf8 text).map byteChar)
      (lok.postWindowExtTextInputEvent winId .textInput ((utf8 text).map byteChar) document)) =
      (textAt document).insert text
  removed (before after : Nat) (document : δ) :
    textAt (lok.removeTextContext winId before after document) =
      (textAt document).remove before after
  typed {charCode keyCode : Nat} (h : IsTypingKey charCode keyCode) (document : δ) :
    textAt (lok.postKeyEvent .keyInput charCode keyCode document) =
      (textAt document).insert [Char.ofNat charCode]
  returned {charCode keyCode : Nat} (h : IsReturnKey charCode keyCode) (document : δ) :
    textAt (lok.postKeyEvent .keyInput charCode keyCode document) =
      (textAt document).insert ['\n']
  released (charCode keyCode : Nat) (document : δ) :
    textAt (lok.postKeyEvent .keyUp charCode keyCode document) = textAt document

variable {lok : LokDocument δ} {textAt : δ → CursorText Char} {winId : Nat}
variable {poco : PocoURI}

/-- What is documented of `URI::decode`: each byte has been escaped, or is a character. -/
def Unescapes (poco : PocoURI) : Prop := ∀ text, Uri.decode poco text = PocoURI.unescape text

theorem getTokenInteger_undefined (name : Payload) :
    getTokenInteger (token name "undefined".toList) name = none := by
  have hnone : strtol ['u', 'n', 'd', 'e', 'f', 'i', 'n', 'e', 'd'] = none := by decide
  simp [getTokenInteger, token, hnone]

/-- The text of a composition, read back. -/
theorem decode_encoded (hdecode : Unescapes poco) {text : JsString} (h : text.all isPlainUnit = true) :
    Uri.decode poco (encoded text) = some ((utf8 (text.map charOf)).map byteChar) := by
  rw [hdecode (encoded text), encoded, encodeURIComponent_of_plain h, Option.getD_some, unescape_escapeBytes]

theorem charOf_ne_zero {text : JsString} (h : text.all isPlainUnit = true) :
    '\x00' ∉ text.map charOf := by
  intro hmem
  obtain ⟨unit, hunit, hzero⟩ := List.mem_map.mp hmem
  have hplain := List.all_eq_true.mp h unit hunit
  simp only [isPlainUnit, isHighSurrogate, isLowSurrogate, Bool.and_eq_true, Bool.not_eq_true',
    bne_iff_ne, Bool.and_eq_false_iff, decide_eq_false_iff_not, UInt16.le_iff_toNat_le,
    Nat.not_le] at hplain
  have hlt : unit.toNat < 2 ^ 16 := unit.toNat_lt
  have hvalid : unit.toNat.isValidChar := by
    unfold Nat.isValidChar
    simp only [UInt16.reduceToNat] at hplain
    omega
  rw [charOf, Char.ofNat, dif_pos hvalid] at hzero
  have hunitZero : unit.toNat = 0 := congrArg Char.toNat hzero
  exact hplain.1.1 (UInt16.toNat_inj.mp hunitZero)

def lokKeyEvent : KeyType → LokKeyEvent
  | .input => .keyInput
  | .up => .keyUp

theorem keyEventType_token (type : KeyType) :
    ChildSession.keyEventType (token "type".toList type.word) = some (lokKeyEvent type) := by
  cases type <;> decide

theorem handleInput_key (charCode unoKeyCode : Option Nat) (type : KeyType) (document : δ) :
    ChildSession.handleInput lok poco (tokensOf winId (.key charCode unoKeyCode type)) document =
      ChildSession.keyEvent lok (tokensOf winId (.key charCode unoKeyCode type)) document := by
  have hkey : equals (tokensOf winId (.key charCode unoKeyCode type)) 0 Word.key = true := by
    simp [equals, tokensOf]
  rw [ChildSession.handleInput, if_pos hkey]

variable (lok) in
theorem keyEvent_of_some {type charCode keyCode : Payload} {event : LokKeyEvent} {c k : Int}
    (htype : ChildSession.keyEventType type = some event)
    (hchar : getTokenInteger charCode "char".toList = some c)
    (hkey : getTokenInteger keyCode Word.key = some k) (command : Payload) (document : δ) :
    ChildSession.keyEvent lok [command, type, charCode, keyCode] document =
      if ChildSession.isIgnoredKey event c k then document
      else lok.postKeyEvent event c k document := by
  simp only [ChildSession.keyEvent, htype, hchar, hkey]

theorem keyEvent_of_none {command type charCode keyCode : Payload}
    (hchar : getTokenInteger charCode "char".toList = none) (document : δ) :
    ChildSession.keyEvent lok [command, type, charCode, keyCode] document = document := by
  simp only [ChildSession.keyEvent, hchar]
  cases ChildSession.keyEventType type <;> rfl

theorem keyEvent_codes {charCode unoKeyCode : Nat} {type : KeyType} (hchar : charCode < 0x10000)
    (hkey : unoKeyCode < 0x2000) (hinsert : type = .input → charCode ≠ 0) (document : δ) :
    ChildSession.keyEvent lok (tokensOf winId (.key (some charCode) (some unoKeyCode) type))
      document = lok.postKeyEvent (lokKeyEvent type) charCode unoKeyCode document := by
  have hkept : ChildSession.isIgnoredKey (lokKeyEvent type) charCode unoKeyCode = false := by
    have hclose : ((unoKeyCode : Int) == 0x2216) = false := by
      rw [beq_eq_false_iff_ne]
      omega
    have htab : ((unoKeyCode : Int) == 0x2502) = false := by
      rw [beq_eq_false_iff_ne]
      omega
    rw [ChildSession.isIgnoredKey, hclose, htab, Bool.false_or, Bool.false_or]
    cases type with
    | up => rfl
    | input => simp [hinsert rfl]
  have htokens : tokensOf winId (.key (some charCode) (some unoKeyCode) type) =
      [Word.key, token "type".toList type.word, token "char".toList (Text.decimal charCode),
        token Word.key (Text.decimal unoKeyCode)] := rfl
  have hevent := keyEvent_of_some lok (keyEventType_token type)
    (getTokenInteger_token (isInt32_of_lt (Nat.lt_trans hchar (by decide))))
    (getTokenInteger_token (isInt32_of_lt (Nat.lt_trans hkey (by decide)))) Word.key document
  rw [htokens, hevent, hkept, if_neg Bool.false_ne_true]

/-- A pressed key types its character. -/
theorem textAt_keyInput (hlok : lok.Types textAt winId) {charCode keyCode : Nat}
    (h : IsTypingKey charCode keyCode ∨ IsReturnKey charCode keyCode) (document : δ) :
    textAt (lok.postKeyEvent .keyInput charCode keyCode document) =
      (textAt document).receive charOf (.key (some charCode) (some keyCode) .input) := by
  rcases h with htyping | hreturn
  · obtain ⟨hlow, hhigh, -⟩ := id htyping
    have hunit : charOf (UInt16.ofNat charCode) = Char.ofNat charCode := by
      rw [charOf, UInt16.toNat_ofNat', Nat.mod_eq_of_lt (by omega)]
    have hzero : charCode ≠ 0 := by omega
    have hne : charCode ≠ 13 := by omega
    rw [hlok.typed htyping, CursorText.receive, if_neg hzero, if_neg hne, hunit]
  · obtain ⟨rfl, -⟩ := id hreturn
    rw [hlok.returned hreturn]
    rfl

/-- A message does to the text what the browser expects of it. -/
theorem textAt_handleInput (hlok : lok.Types textAt winId)
    (hdecode : Unescapes poco) (hwin : IsInt32 winId) {m : Sent} (hsound : IsSound m) (hcounts : counts m < 2 ^ 31) (document : δ) :
    textAt (ChildSession.handleInput lok poco (tokensOf winId m) document) =
      (textAt document).receive charOf m := by
  cases m with
  | removeTextContent before after =>
      have hsum : before + after < 2 ^ 31 := hcounts
      have hbefore : IsInt32 before := isInt32_of_lt (by omega)
      have hafter : IsInt32 after := isInt32_of_lt (by omega)
      have hcall : ChildSession.handleInput lok poco
          (tokensOf winId (.removeTextContent before after)) document =
          lok.removeTextContext winId before after document := by
        simp [ChildSession.handleInput, ChildSession.removeTextContext, tokensOf, equals,
          getTokenInteger_token, hwin, hbefore, hafter, Word.key, Word.textinput,
          Word.removetextcontext]
      rw [hcall, hlok.removed, CursorText.receive]
  | composition text =>
      have hcall : ChildSession.handleInput lok poco (tokensOf winId (.composition text))
          document = lok.postWindowExtTextInputEvent winId .textInputEnd
            ((utf8 (text.map charOf)).map byteChar)
            (lok.postWindowExtTextInputEvent winId .textInput
              ((utf8 (text.map charOf)).map byteChar) document) := by
        simp [ChildSession.handleInput, ChildSession.extTextInputEvent, tokensOf, equals,
          getTokenInteger_token, getTokenString_token, hwin, decode_encoded hdecode hsound,
          Word.key, Word.textinput]
      rw [hcall, hlok.composed _ (charOf_ne_zero hsound), CursorText.receive]
  | key charCode unoKeyCode type =>
      rw [handleInput_key]
      cases charCode with
      | none =>
          cases unoKeyCode with
          | none =>
              have htokens : tokensOf winId (.key none none type) =
                  [Word.key, token "type".toList type.word,
                    token "char".toList "undefined".toList,
                    token Word.key "undefined".toList] := rfl
              rw [htokens, keyEvent_of_none (getTokenInteger_undefined _)]
              cases type <;> rfl
          | some unoKeyCode => simp [IsSound] at hsound
      | some charCode =>
          cases unoKeyCode with
          | none => simp [IsSound] at hsound
          | some unoKeyCode =>
              cases type with
              | up =>
                  obtain ⟨rfl, hkey⟩ := hsound
                  rw [keyEvent_codes (by decide) hkey (by simp)]
                  exact hlok.released _ _ _
              | input =>
                  have hcodes := hsound
                  simp only [IsSound, IsTypingKey, IsReturnKey] at hcodes
                  rw [keyEvent_codes (by omega) (by omega) (fun _ => by omega)]
                  exact textAt_keyInput hlok hsound document

end Calls

end CoolOnline.Kit
