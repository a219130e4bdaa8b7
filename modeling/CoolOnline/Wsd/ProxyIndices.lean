import CoolOnline.Library.Indexed
import CoolOnline.Wsd.ProxyProtocol

/-! # The indices that proxied frames are read with

`hasCompleteMessage` and `parseEmitIncoming` of `wsd/ProxyProtocol.cpp` once more, with every access
to the input buffer made by index and in the arithmetic of the machine. There is no result where
something is read or erased that is not in the buffer.
-/

namespace CoolOnline.Proxy

open HexUtil Indexed

/-! ## Reading by index -/

/-- The largest number of 64 bits. -/
def ULLONG_MAX : Nat := 2 ^ 64 - 1

/-- `strtoull` with base 16, of any number. -/
def strtoull64 (text : Payload) : Nat :=
  match text.dropWhile Text.isSpace with
  | '+' :: rest => min (hexValue (hexDigits rest)) ULLONG_MAX
  | '-' :: rest =>
      let magnitude := hexValue (hexDigits rest)
      if magnitude ≤ ULLONG_MAX then (2 ^ 64 - magnitude) % 2 ^ 64 else ULLONG_MAX
  | rest => min (hexValue (hexDigits rest)) ULLONG_MAX

/-- An `int` is below this. -/
def intEnd : Nat := 2 ^ 31

/-- `Buffer::operator[]`, whose index is an `int`. -/
def charAt (p : Payload) (index : Nat) : Option Char := if index < intEnd then p[index]? else none

/-- The loop that looks for a line break, with what is left of the buffer. -/
def scanTo (p : Payload) : Nat → Nat → Option Nat
  | 0, pos => some pos
  | left + 1, pos =>
      (charAt p pos).bind fun c => if c = '\n' then some pos else scanTo p left (pos + 1)

/-- The size of the frame against the size of the buffer. -/
def frameFits (p lengthStr : Payload) (pos : Nat) : Bool :=
  decide ((pos + strtoull64 lengthStr + 1) % 2 ^ 64 ≤ p.length)

def hasCompleteMessageAt (p : Payload) : Option Bool :=
  if p.length < 2 then
    if p.length = 1 then (charAt p 0).map (· == '.') else some false
  else
    (scanTo p (p.length - 1) 1).bind fun pos =>
      if p.length ≤ pos then some false
      else
        let lengthStart := pos + 1
        (scanTo p (p.length - lengthStart) lengthStart).bind fun pos =>
          if p.length ≤ pos then some false
          else if lengthStrSize ≤ pos - lengthStart then some false
          else
            (readRange p lengthStart (pos - lengthStart)).map fun lengthStr =>
              frameFits p lengthStr (pos + 1)

/-- The text up to the line break, which is overwritten, and what is left when both are erased. -/
def takeLineAt (p : Payload) (start : Nat) : Option (Payload × Payload) :=
  let it := start + (p.drop start).findIdx (· == '\n')
  if it < p.length then
    (readRange p start (it - start)).bind fun text =>
      (eraseFirst (it + 1) p).map fun rest => (text, rest)
  else none

/-- A copy of the first `len` elements; what is added to an iterator is a signed number. -/
def copyFirst (p : Payload) (len : Nat) : Option Payload :=
  if len < 2 ^ 63 then readRange p 0 len else none

/-- What a turn of the loop comes to. -/
inductive FrameTurn
  | wait
  | ends (status : ParseStatus) (left : Payload)
  | frame (serial : Nat) (data left : Payload)

/-- What follows in the loop where a message is complete and its type is right. -/
def readFrameAt (p : Payload) : Option FrameTurn :=
  (takeLineAt p 1).bind fun (serialStr, p) =>
    (takeLineAt p 0).bind fun (lengthStr, p) =>
      let len := strtoull64 lengthStr
      (copyFirst p len).bind fun data =>
        (eraseFirst len p).bind fun p =>
          if p.length < 1 then some (.ends .protocolError p)
          else
            (charAt p 0).bind fun c =>
              if c ≠ '\n' then some (.ends .protocolError p)
              else (eraseFirst 1 p).map fun p => .frame (strtoull64 serialStr) data p

def frameTurn (p : Payload) : Option FrameTurn :=
  (hasCompleteMessageAt p).bind fun complete =>
    if !complete then some .wait
    else
      (charAt p 0).bind fun type =>
        if type = '.' then some (.ends .complete p)
        else if type ≠ 'T' ∧ type ≠ 'B' then some (.ends .protocolError p)
        else readFrameAt p

/-- The loop over the messages in the buffer. -/
def parseEmitIncomingAt : Nat → ProxyProtocolHandler → Payload →
    Option (ParseStatus × ProxyProtocolHandler × Payload)
  | 0, h, p => some (.again, h, p)
  | turns + 1, h, p =>
      if p.length = 0 then some (.again, h, p)
      else
        (frameTurn p).bind fun
          | .wait => some (.again, h, p)
          | .ends status left => some (status, h, left)
          | .frame serial data left => parseEmitIncomingAt turns (h.receive serial data) left

/-! ## Whole frames -/

/-- A type, two lines, as much as the second one says, and a line break. -/
structure WholeFrame (frame : Payload) : Prop where
  exists_split : ∃ type serial lengthStr data,
    frame = type :: (serial ++ ('\n' :: (lengthStr ++ ('\n' :: (data ++ ['\n']))))) ∧
      (type = 'T' ∨ type = 'B') ∧ '\n' ∉ serial ∧ '\n' ∉ lengthStr ∧
      strtoull64 lengthStr = data.length ∧ lengthStr.length < lengthStrSize

/-- The buffer that is parsed again and again, with pieces that come: nothing outside of it is read
or erased, and what is consumed are whole frames. -/
def SafelyFed : ProxyProtocolHandler → Payload → List Payload → Prop
  | _, _, [] => True
  | h, buffer, piece :: pieces =>
      ∃ status h' left, parseEmitIncomingAt ((buffer ++ piece).length + 1) h (buffer ++ piece) =
          some (status, h', left) ∧
        (∃ frames : List Payload, (∀ frame ∈ frames, WholeFrame frame) ∧
          buffer ++ piece = frames.flatten ++ left) ∧
        SafelyFed h' left pieces

/-- What is behind some whole frames. -/
inductive Behind : Payload → Payload → Prop
  | refl (p : Payload) : Behind p p
  | frame {frame p q : Payload} (hframe : WholeFrame frame) (hrest : Behind p q) :
      Behind (frame ++ p) q

/-- What comes can be parsed: its first two lines end where an `int` can say so, and a frame has a
length that leaves no more than 64 bits for its size, and a line break behind its content. A length
that is no signed number is of more than any buffer holds. -/
structure Sound (p : Payload) : Prop where
  lines : p.length ≤ intEnd ∨ ∃ serial lengthStr content,
    cutFrame p = some (serial, lengthStr, content) ∧ serial.length + lengthStr.length + 2 < intEnd
  length : (p.head? = some 'T' ∨ p.head? = some 'B') → ∀ serial lengthStr content,
    cutFrame p = some (serial, lengthStr, content) → lengthStr.length < lengthStrSize →
      serial.length + lengthStr.length + 3 + strtoull64 lengthStr + 1 < 2 ^ 64 ∧
        (strtoull64 lengthStr < content.length → strtoull64 lengthStr < 2 ^ 63)
  lineBreak : (p.head? = some 'T' ∨ p.head? = some 'B') → ∀ serial lengthStr content,
    cutFrame p = some (serial, lengthStr, content) → lengthStr.length < lengthStrSize →
      strtoull64 lengthStr < content.length → content[strtoull64 lengthStr]? = some '\n'

section

variable {p before line rest serial lengthStr content : Payload} {type : Char} {n : Nat}

theorem charAt_append (before : Payload) (c : Char) (rest : Payload) :
    charAt (before ++ c :: rest) before.length =
      if before.length < intEnd then some c else none := by
  rw [charAt, List.getElem?_append_right (Nat.le_refl _), Nat.sub_self, List.getElem?_cons_zero]

/-- The scan stops at the line break, if it gets there. -/
theorem scanTo_line (before rest : Payload) (h : '\n' ∉ line) (hn : line.length < n) :
    scanTo (before ++ (line ++ '\n' :: rest)) n before.length =
      if before.length + line.length < intEnd then some (before.length + line.length) else none := by
  induction line generalizing before n with
  | nil =>
      cases n with
      | zero => exact absurd hn (Nat.not_lt_zero _)
      | succ n =>
          simp only [List.nil_append, scanTo, charAt_append, List.length_nil, Nat.add_zero]
          by_cases hlt : before.length < intEnd
          case pos => simp only [hlt, if_true, Option.bind_some]
          case neg => simp only [hlt, if_false, Option.bind_none]
  | cons c line ih =>
      cases n with
      | zero => exact absurd hn (Nat.not_lt_zero _)
      | succ n =>
          have hc : c ≠ '\n' := fun hc => h (hc ▸ List.mem_cons_self)
          have hrest := ih (n := n) (before ++ [c])
            (fun hmem => h (List.mem_cons_of_mem c hmem)) (Nat.lt_of_succ_lt_succ hn)
          rw [List.append_assoc, List.singleton_append, List.length_append, List.length_singleton]
            at hrest
          rw [List.cons_append, scanTo, charAt_append, List.length_cons]
          split
          case isTrue hlt =>
            simp only [Option.bind_some, hc, if_false]
            rw [hrest, Nat.add_right_comm, Nat.add_assoc]
          case isFalse hge =>
            rw [if_neg (by omega)]
            rfl

/-- Without a line break all is read. -/
theorem scanTo_of_not_mem (before : Payload) (h : '\n' ∉ line) :
    scanTo (before ++ line) line.length before.length =
      if line = [] ∨ (before ++ line).length ≤ intEnd then some (before ++ line).length
      else none := by
  induction line generalizing before with
  | nil =>
      rw [if_pos (.inl rfl), List.append_nil]
      rfl
  | cons c line ih =>
      have hc : c ≠ '\n' := fun hc => h (hc ▸ List.mem_cons_self)
      have hrest := ih (before ++ [c]) fun hmem => h (List.mem_cons_of_mem c hmem)
      rw [List.append_assoc, List.singleton_append, List.length_append, List.length_singleton]
        at hrest
      rw [List.length_cons, scanTo, charAt_append]
      split
      case isTrue hlt =>
        simp only [Option.bind_some, hc, if_false]
        rw [hrest]
        simp only [List.length_append, List.length_cons, reduceCtorEq, false_or]
        cases line with
        | nil =>
            rw [if_pos (.inl rfl), if_pos]
            exact Nat.succ_le_of_lt hlt
        | cons => simp only [reduceCtorEq, false_or]
      case isFalse hge =>
        rw [if_neg]
        · rfl
        · simp only [List.length_append, List.length_cons, reduceCtorEq, false_or]
          omega

theorem cutLine_eq_some {text line rest : Payload} (h : Text.cutLine text = some (line, rest)) :
    text = line ++ ('\n' :: rest) ∧ '\n' ∉ line := by
  by_cases hmem : '\n' ∈ text
  case neg =>
    rw [Text.cutLine_of_not_mem hmem] at h
    cases h
  case pos =>
    rcases List.eq_append_cons_of_mem hmem with ⟨first, behind, rfl, hfirst⟩
    rw [Text.cutLine_append hfirst] at h
    cases h
    exact ⟨rfl, hfirst⟩

theorem not_mem_of_cutLine {text : Payload} (h : Text.cutLine text = none) : '\n' ∉ text := by
  intro hmem
  rcases List.eq_append_cons_of_mem hmem with ⟨first, behind, rfl, hfirst⟩
  rw [Text.cutLine_append hfirst] at h
  cases h

/-- A buffer with two lines behind its first element. -/
structure IsCut (p : Payload) (type : Char) (serial lengthStr content : Payload) : Prop where
  eq : p = type :: (serial ++ ('\n' :: (lengthStr ++ ('\n' :: content))))
  serial : '\n' ∉ serial
  lengthStr : '\n' ∉ lengthStr

theorem exists_isCut (h : cutFrame p = some (serial, lengthStr, content)) :
    ∃ type, IsCut p type serial lengthStr content := by
  rcases Option.bind_eq_some_iff.mp h with ⟨⟨first, rest⟩, hfirst, h⟩
  rcases Option.map_eq_some_iff.mp h with ⟨⟨second, behind⟩, hsecond, h⟩
  cases h
  rcases cutLine_eq_some hfirst with ⟨htail, hserial⟩
  rcases cutLine_eq_some hsecond with ⟨hrest, hlength⟩
  simp only at hrest htail
  cases p with
  | nil =>
      rw [List.tail_nil] at htail
      exact absurd htail.symm (by simp)
  | cons type tail =>
      rw [List.tail_cons] at htail
      exact ⟨type, by rw [htail, hrest], hserial, hlength⟩

theorem IsCut.cutFrame (h : IsCut p type serial lengthStr content) :
    cutFrame p = some (serial, lengthStr, content) := by
  rw [h.eq, Proxy.cutFrame, List.tail_cons, Text.cutLine_append h.serial, Option.bind_some,
    Text.cutLine_append h.lengthStr]
  rfl

theorem IsCut.length (h : IsCut p type serial lengthStr content) :
    p.length = serial.length + lengthStr.length + 3 + content.length := by
  rw [h.eq]
  simp only [List.length_cons, List.length_append]
  omega

/-- Both lines are scanned. -/
theorem hasCompleteMessageAt_of_isCut (h : IsCut p type serial lengthStr content) :
    hasCompleteMessageAt p =
      if serial.length + lengthStr.length + 2 < intEnd then
        some (decide (lengthStr.length < lengthStrSize) &&
          frameFits p lengthStr (serial.length + lengthStr.length + 3))
      else none := by
  have hlength := h.length
  have hfirst : scanTo p (p.length - 1) 1 =
      if 1 + serial.length < intEnd then some (1 + serial.length) else none := by
    have hscan := scanTo_line [type] (lengthStr ++ ('\n' :: content))
      (n := p.length - 1) h.serial (by omega)
    rw [List.singleton_append, ← h.eq] at hscan
    exact hscan
  have hsecond : scanTo p (p.length - (1 + serial.length + 1)) (1 + serial.length + 1) =
      if 1 + serial.length + 1 + lengthStr.length < intEnd then
        some (1 + serial.length + 1 + lengthStr.length) else none := by
    have hscan := scanTo_line (type :: (serial ++ ['\n'])) content
      (n := p.length - (1 + serial.length + 1)) h.lengthStr (by omega)
    have hbefore : (type :: (serial ++ ['\n'])).length = 1 + serial.length + 1 := by
      simp only [List.length_cons, List.length_append, List.length_nil]
      omega
    have hsplit : type :: (serial ++ ['\n']) ++ (lengthStr ++ '\n' :: content) = p := by
      rw [h.eq]
      simp
    rw [hbefore, hsplit] at hscan
    exact hscan
  have hread : readRange p (1 + serial.length + 1) lengthStr.length = some lengthStr := by
    rw [readRange_eq (by omega), h.eq]
    have hsplit : type :: (serial ++ ('\n' :: (lengthStr ++ ('\n' :: content)))) =
        (type :: (serial ++ ['\n'])) ++ (lengthStr ++ ('\n' :: content)) := by simp
    have hbefore : 1 + serial.length + 1 = (type :: (serial ++ ['\n'])).length := by
      simp only [List.length_cons, List.length_append, List.length_nil]
      omega
    rw [hsplit, hbefore, List.drop_left, List.take_left]
  rw [hasCompleteMessageAt, if_neg (by omega), hfirst]
  by_cases hlines : serial.length + lengthStr.length + 2 < intEnd
  case pos =>
    rw [if_pos (by omega), if_pos hlines]
    simp only [Option.bind_some]
    rw [if_neg (by omega), hsecond, if_pos (by omega)]
    simp only [Option.bind_some]
    rw [if_neg (by omega), Nat.add_sub_cancel_left]
    by_cases hlong : lengthStrSize ≤ lengthStr.length
    case pos =>
      rw [if_pos hlong]
      simp only [Nat.not_lt.mpr hlong, decide_false, Bool.false_and]
    case neg =>
      have hpos : 1 + serial.length + 1 + lengthStr.length + 1 =
          serial.length + lengthStr.length + 3 := by omega
      rw [if_neg hlong, hread, hpos]
      simp only [Option.map_some, Nat.not_le.mp hlong, decide_true, Bool.true_and]
  case neg =>
    rw [if_neg hlines]
    by_cases hline : 1 + serial.length < intEnd
    case pos =>
      rw [if_pos hline]
      simp only [Option.bind_some]
      rw [if_neg (by omega), hsecond, if_neg (by omega)]
      rfl
    case neg =>
      rw [if_neg hline]
      rfl

/-- Where a line has not come to its end, all is read. -/
theorem hasCompleteMessageAt_of_cutFrame (h : cutFrame p = none) (hlong : 2 ≤ p.length) :
    hasCompleteMessageAt p = if p.length ≤ intEnd then some false else none := by
  cases p with
  | nil => exact absurd hlong (by decide)
  | cons type tail =>
      have hne : tail ≠ [] := by
        rintro rfl
        exact absurd hlong (by simp)
      rw [hasCompleteMessageAt, if_neg (by omega)]
      cases hfirst : Text.cutLine tail with
      | none =>
          have hscan := scanTo_of_not_mem [type] (not_mem_of_cutLine hfirst)
          rw [List.singleton_append] at hscan
          simp only [hne, false_or] at hscan
          change (scanTo (type :: tail) tail.length [type].length).bind _ = _
          rw [hscan]
          split
          · simp only [Option.bind_some, Nat.le_refl, if_true]
          · rfl
      | some found =>
          rcases found with ⟨line, rest⟩
          rcases cutLine_eq_some hfirst with ⟨rfl, hline⟩
          have hsecond : Text.cutLine rest = none := by
            rw [cutFrame, List.tail_cons, hfirst, Option.bind_some] at h
            exact Option.map_eq_none_iff.mp h
          have hscan := scanTo_line [type] rest
            (n := (line ++ '\n' :: rest).length) hline
            (by simp only [List.length_append, List.length_cons]; omega)
          have hnext := scanTo_of_not_mem (type :: (line ++ ['\n']))
            (not_mem_of_cutLine hsecond)
          have hsplit : type :: (line ++ ['\n']) ++ rest = type :: (line ++ '\n' :: rest) := by simp
          have hbefore : (type :: (line ++ ['\n'])).length = [type].length + line.length + 1 := by
            simp only [List.length_cons, List.length_append, List.length_nil]
            omega
          rw [List.singleton_append] at hscan
          rw [hsplit, hbefore] at hnext
          have hlength : (type :: (line ++ '\n' :: rest)).length =
              [type].length + line.length + 1 + rest.length := by
            simp only [List.length_cons, List.length_append, List.length_nil]
            omega
          change (scanTo (type :: (line ++ '\n' :: rest)) (line ++ '\n' :: rest).length
            [type].length).bind _ = _
          rw [hscan]
          by_cases hlt : [type].length + line.length < intEnd
          case neg =>
            rw [if_neg hlt, if_neg (by omega)]
            rfl
          case pos =>
            rw [if_pos hlt]
            simp only [Option.bind_some]
            rw [if_neg (by omega)]
            have hleft : (type :: (line ++ '\n' :: rest)).length -
                ([type].length + line.length + 1) = rest.length := by omega
            rw [hleft, hnext]
            by_cases hall : (type :: (line ++ '\n' :: rest)).length ≤ intEnd
            case pos =>
              rw [if_pos (.inr hall), if_pos hall]
              simp only [Option.bind_some, Nat.le_refl, if_true]
            case neg =>
              have hrest : rest ≠ [] := by
                rintro rfl
                rw [List.length_nil] at hlength
                omega
              rw [if_neg (not_or.mpr ⟨hrest, hall⟩), if_neg hall]
              rfl

theorem takeLineAt_append (before : Payload) (h : '\n' ∉ line) (rest : Payload) :
    takeLineAt (before ++ (line ++ '\n' :: rest)) before.length = some (line, rest) := by
  have hfound : (line ++ '\n' :: rest).findIdx (· == '\n') = line.length :=
    Text.findIdx_append_cons (Text.ne_of_not_mem h) rfl rest
  have hlength : (before ++ (line ++ '\n' :: rest)).length =
      before.length + line.length + 1 + rest.length := by
    simp only [List.length_append, List.length_cons]
    omega
  rw [takeLineAt, List.drop_left, hfound, if_pos (by omega), Nat.add_sub_cancel_left, readRange_eq (by omega), List.drop_left,
    List.take_left, eraseFirst_eq (by omega)]
  have hsplit : before ++ (line ++ '\n' :: rest) = (before ++ (line ++ ['\n'])) ++ rest := by simp
  have hbefore : before.length + line.length + 1 = (before ++ (line ++ ['\n'])).length := by
    simp only [List.length_append, List.length_cons, List.length_nil]
    omega
  rw [hsplit, hbefore, List.drop_left]
  rfl

/-- What is read where both lines are there. -/
theorem readFrameAt_of_isCut (h : IsCut p type serial lengthStr content) :
    readFrameAt p =
      (copyFirst content (strtoull64 lengthStr)).bind fun data =>
        (eraseFirst (strtoull64 lengthStr) content).bind fun p =>
          if p.length < 1 then some (.ends .protocolError p)
          else
            (charAt p 0).bind fun c =>
              if c ≠ '\n' then some (.ends .protocolError p)
              else (eraseFirst 1 p).map fun p => .frame (strtoull64 serial) data p := by
  have hfirst := takeLineAt_append [type] h.serial (lengthStr ++ ('\n' :: content))
  have hsecond := takeLineAt_append [] h.lengthStr content
  rw [List.singleton_append, ← h.eq] at hfirst
  rw [readFrameAt]
  change (takeLineAt p [type].length).bind _ = _
  rw [hfirst]
  change (takeLineAt ([] ++ (lengthStr ++ '\n' :: content)) ([] : Payload).length).bind _ = _
  rw [hsecond]
  rfl

/-! ## One turn -/

theorem IsCut.head? (h : IsCut p type serial lengthStr content) : p.head? = some type := by
  rw [h.eq]
  rfl

theorem IsCut.unique {type' : Char} {serial' lengthStr' content' : Payload}
    (h : IsCut p type serial lengthStr content) (h' : IsCut p type' serial' lengthStr' content') :
    type = type' ∧ serial = serial' ∧ lengthStr = lengthStr' ∧ content = content' := by
  have htype := h.head?.symm.trans h'.head?
  have hcut := h.cutFrame.symm.trans h'.cutFrame
  cases htype
  cases hcut
  exact ⟨rfl, rfl, rfl, rfl⟩

/-- A buffer that begins with a whole frame. -/
theorem WholeFrame.isCut {frame : Payload} (h : WholeFrame frame) (rest : Payload) :
    ∃ type serial lengthStr data, IsCut (frame ++ rest) type serial lengthStr (data ++ '\n' :: rest) ∧
      (type = 'T' ∨ type = 'B') ∧ strtoull64 lengthStr = data.length ∧
      lengthStr.length < lengthStrSize ∧
      frame.length = serial.length + lengthStr.length + 3 + data.length + 1 := by
  rcases h.exists_split with
    ⟨type, serial, lengthStr, data, rfl, htype, hserial, hlengthStr, hvalue, hshort⟩
  refine ⟨type, serial, lengthStr, data, ⟨?_, hserial, hlengthStr⟩, htype, hvalue, hshort, ?_⟩
  · simp
  · simp only [List.length_cons, List.length_append, List.length_nil]
    omega

theorem WholeFrame.unique {frame frame' rest rest' : Payload} (h : WholeFrame frame)
    (h' : WholeFrame frame') (heq : frame ++ rest = frame' ++ rest') :
    frame = frame' ∧ rest = rest' := by
  rcases h.isCut rest with ⟨type, serial, lengthStr, data, hcut, -, hvalue, -, hlength⟩
  rcases h'.isCut rest' with ⟨type', serial', lengthStr', data', hcut', -, hvalue', -, hlength'⟩
  rw [heq] at hcut
  rcases hcut.unique hcut' with ⟨-, rfl, rfl, -⟩
  exact List.append_inj heq (by omega)

/-- Whole frames, one after the other. -/
theorem behind_iff {q : Payload} :
    Behind p q ↔
      ∃ frames : List Payload, (∀ frame ∈ frames, WholeFrame frame) ∧ p = frames.flatten ++ q := by
  constructor
  · intro h
    induction h with
    | refl p => exact ⟨[], List.forall_mem_nil _, rfl⟩
    | @frame frame p q hframe _ ih =>
        rcases ih with ⟨frames, hall, rfl⟩
        exact ⟨frame :: frames, List.forall_mem_cons.mpr ⟨hframe, hall⟩, by simp⟩
  · rintro ⟨frames, hall, rfl⟩
    induction frames with
    | nil => exact .refl q
    | cons frame frames ih =>
        rcases List.forall_mem_cons.mp hall with ⟨hframe, hall⟩
        rw [List.flatten_cons, List.append_assoc]
        exact .frame hframe (ih hall)

theorem Behind.length_le {q : Payload} (h : Behind p q) : q.length ≤ p.length := by
  rcases behind_iff.mp h with ⟨frames, -, rfl⟩
  rw [List.length_append]
  omega

/-- No whole frame is in front. -/
def NoFrame (p : Payload) : Prop := ∀ frame rest, WholeFrame frame → p ≠ frame ++ rest

theorem NoFrame.behind {q : Payload} (h : NoFrame p) (hbehind : Behind p q) : q = p := by
  cases hbehind with
  | refl => rfl
  | frame hframe => exact absurd rfl (h _ _ hframe)

theorem noFrame_of_cutFrame (h : cutFrame p = none) : NoFrame p := by
  rintro frame rest hframe rfl
  rcases hframe.isCut rest with ⟨type, serial, lengthStr, data, hcut, -⟩
  rw [hcut.cutFrame] at h
  cases h

theorem strtoull64_le (text : Payload) : strtoull64 text ≤ ULLONG_MAX := by
  rw [strtoull64]
  split
  · exact Nat.min_le_right _ _
  · simp only
    split
    · rw [ULLONG_MAX]
      omega
    · exact Nat.le_refl _
  · exact Nat.min_le_right _ _

/-- How a turn leaves a buffer that can be parsed. -/
inductive SoundTurn (p : Payload) : Option FrameTurn → Prop
  | wait (hnone : NoFrame p) : SoundTurn p (some .wait)
  | ends (status : ParseStatus) (hnone : NoFrame p) : SoundTurn p (some (.ends status p))
  | frame {frame : Payload} (serial : Nat) (data left : Payload) (hframe : WholeFrame frame)
      (heq : p = frame ++ left) : SoundTurn p (some (.frame serial data left))

/-- How it leaves one that cannot. -/
inductive UnsoundTurn (p : Payload) : Option FrameTurn → Prop
  | none : UnsoundTurn p none
  | ends (status : ParseStatus) (left : Payload) (hle : left.length ≤ p.length)
      (hnot : ¬ Behind p left) : UnsoundTurn p (some (.ends status left))

theorem frameTurn_of_incomplete (h : hasCompleteMessageAt p = some false) :
    frameTurn p = some .wait := by
  rw [frameTurn, h]
  rfl

theorem frameTurn_of_outside (h : hasCompleteMessageAt p = none) : frameTurn p = none := by
  rw [frameTurn, h]
  rfl

theorem frameTurn_of_complete (h : hasCompleteMessageAt p = some true)
    (htype : p.head? = some type) :
    frameTurn p =
      if type = '.' then some (.ends .complete p)
      else if type ≠ 'T' ∧ type ≠ 'B' then some (.ends .protocolError p)
      else readFrameAt p := by
  have hchar : charAt p 0 = some type := by
    rw [charAt, if_pos (by decide), ← List.head?_eq_getElem?, htype]
  rw [frameTurn, h]
  simp only [Option.bind_some, Bool.not_true, Bool.false_eq_true, if_false, hchar]

theorem sound_of_cutFrame (h : cutFrame p = none) (hlength : p.length ≤ intEnd) : Sound p := by
  apply Sound.mk (.inl hlength)
  · intro _ serial lengthStr content hcut
    rw [h] at hcut
    cases hcut
  · intro _ serial lengthStr content hcut
    rw [h] at hcut
    cases hcut

/-- Nothing more is asked of what is no frame that can come to its end. -/
theorem IsCut.sound_of_not (h : IsCut p type serial lengthStr content)
    (hlines : serial.length + lengthStr.length + 2 < intEnd)
    (hnot : ¬ ((type = 'T' ∨ type = 'B') ∧ lengthStr.length < lengthStrSize)) : Sound p := by
  have hfalse : (p.head? = some 'T' ∨ p.head? = some 'B') → ∀ serial lengthStr content,
      Proxy.cutFrame p = some (serial, lengthStr, content) →
        ¬ lengthStr.length < lengthStrSize := by
    intro htype serial' lengthStr' content' hcut hshort
    rw [h.cutFrame] at hcut
    cases hcut
    rw [h.head?, Option.some.injEq, Option.some.injEq] at htype
    exact hnot ⟨htype, hshort⟩
  apply Sound.mk (.inr ⟨serial, lengthStr, content, h.cutFrame, hlines⟩)
  · exact fun htype _ _ _ hcut hshort => absurd hshort (hfalse htype _ _ _ hcut)
  · exact fun htype _ _ _ hcut hshort => absurd hshort (hfalse htype _ _ _ hcut)

theorem IsCut.noFrame_of_not (h : IsCut p type serial lengthStr content)
    (hnot : ¬ ((type = 'T' ∨ type = 'B') ∧ lengthStr.length < lengthStrSize)) : NoFrame p := by
  rintro frame rest hframe rfl
  rcases hframe.isCut rest with ⟨type', serial', lengthStr', data, hcut, htype, -, hshort, -⟩
  rcases h.unique hcut with ⟨rfl, -, rfl, -⟩
  exact hnot ⟨htype, hshort⟩

theorem soundTurn_of_cutFrame (hne : p ≠ []) (hcut : cutFrame p = none) :
    Sound p ∧ SoundTurn p (frameTurn p) ∨ ¬ Sound p ∧ UnsoundTurn p (frameTurn p) := by
  have hnone := noFrame_of_cutFrame hcut
  match p with
  | [type] =>
      left
      apply And.intro (sound_of_cutFrame hcut (by decide : 1 ≤ intEnd))
      have hcomplete : hasCompleteMessageAt [type] = some (type == '.') := rfl
      by_cases hdot : type = '.'
      case pos =>
        rw [hdot] at hcomplete hnone ⊢
        rw [frameTurn_of_complete hcomplete rfl, if_pos rfl]
        exact .ends .complete hnone
      case neg =>
        have hfalse : (type == '.') = false := by
          rw [beq_eq_false_iff_ne]
          exact hdot
        rw [hfalse] at hcomplete
        rw [frameTurn_of_incomplete hcomplete]
        exact .wait hnone
  | type :: next :: tail =>
      have hscan := hasCompleteMessageAt_of_cutFrame hcut (by simp)
      by_cases hlength : (type :: next :: tail).length ≤ intEnd
      case pos =>
        left
        rw [if_pos hlength] at hscan
        rw [frameTurn_of_incomplete hscan]
        exact ⟨sound_of_cutFrame hcut hlength, .wait hnone⟩
      case neg =>
        right
        rw [if_neg hlength] at hscan
        rw [frameTurn_of_outside hscan]
        apply And.intro _ .none
        intro hsound
        rcases hsound.lines with hle | ⟨serial, lengthStr, content, hsome, -⟩
        · exact hlength hle
        · rw [hcut] at hsome
          cases hsome

/-- What a frame has to be, given its lines. -/
theorem IsCut.sound_iff (h : IsCut p type serial lengthStr content)
    (hlines : serial.length + lengthStr.length + 2 < intEnd) (htype : type = 'T' ∨ type = 'B')
    (hshort : lengthStr.length < lengthStrSize) :
    Sound p ↔
      (serial.length + lengthStr.length + 3 + strtoull64 lengthStr + 1 < 2 ^ 64 ∧
        (strtoull64 lengthStr < content.length → strtoull64 lengthStr < 2 ^ 63)) ∧
      (strtoull64 lengthStr < content.length →
        content[strtoull64 lengthStr]? = some '\n') := by
  have hhead : p.head? = some 'T' ∨ p.head? = some 'B' := by
    rw [h.head?, Option.some.injEq, Option.some.injEq]
    exact htype
  constructor
  · exact fun hsound => ⟨hsound.length hhead _ _ _ h.cutFrame hshort,
      hsound.lineBreak hhead _ _ _ h.cutFrame hshort⟩
  · rintro ⟨hlength, hbreak⟩
    apply Sound.mk (.inr ⟨serial, lengthStr, content, h.cutFrame, hlines⟩)
    · intro _ serial' lengthStr' content' hcut _
      cases h.cutFrame.symm.trans hcut
      exact hlength
    · intro _ serial' lengthStr' content' hcut _
      cases h.cutFrame.symm.trans hcut
      exact hbreak

/-- The frame is there, or is taken to be there. -/
theorem frameTurn_of_fits (h : IsCut p type serial lengthStr content)
    (hlines : serial.length + lengthStr.length + 2 < intEnd) (htype : type = 'T' ∨ type = 'B')
    (hshort : lengthStr.length < lengthStrSize)
    (hfits : frameFits p lengthStr (serial.length + lengthStr.length + 3) = true) :
    frameTurn p = readFrameAt p := by
  have hcomplete := hasCompleteMessageAt_of_isCut h
  have hshort : decide (lengthStr.length < lengthStrSize) = true := decide_eq_true hshort
  rw [if_pos hlines, hfits, hshort] at hcomplete
  rw [frameTurn_of_complete hcomplete h.head?]
  rcases htype with rfl | rfl <;> rfl

theorem frameTurn_of_not_fits (h : IsCut p type serial lengthStr content)
    (hlines : serial.length + lengthStr.length + 2 < intEnd)
    (hfits : frameFits p lengthStr (serial.length + lengthStr.length + 3) = false) :
    frameTurn p = some .wait := by
  have hcomplete := hasCompleteMessageAt_of_isCut h
  rw [if_pos hlines, hfits, Bool.and_false] at hcomplete
  exact frameTurn_of_incomplete hcomplete

/-- The content is there, and something behind it. -/
theorem readFrameAt_of_content (h : IsCut p type serial lengthStr content)
    (hsigned : strtoull64 lengthStr < 2 ^ 63) (hlt : strtoull64 lengthStr < content.length) :
    ∃ c left, content.drop (strtoull64 lengthStr) = c :: left ∧
      readFrameAt p =
        if c ≠ '\n' then some (.ends .protocolError (c :: left))
        else some (.frame (strtoull64 serial) (content.take (strtoull64 lengthStr)) left) := by
  have hcopy : copyFirst content (strtoull64 lengthStr) =
      some (content.take (strtoull64 lengthStr)) := by
    rw [copyFirst, if_pos hsigned, readRange_eq (by omega), List.drop_zero]
  cases hdrop : content.drop (strtoull64 lengthStr) with
  | nil =>
      have hlength := congrArg List.length hdrop
      rw [List.length_drop, List.length_nil] at hlength
      omega
  | cons c left =>
      refine ⟨c, left, rfl, ?_⟩
      have hchar : charAt (c :: left) 0 = some c := rfl
      rw [readFrameAt_of_isCut h, hcopy, eraseFirst_eq (Nat.le_of_lt hlt), hdrop]
      simp only [Option.bind_some]
      rw [if_neg (by simp), hchar, eraseFirst_eq (by simp)]
      rfl

/-- A frame whose lines have come. -/
theorem soundTurn_of_frame (h : IsCut p type serial lengthStr content)
    (hlines : serial.length + lengthStr.length + 2 < intEnd) (htype : type = 'T' ∨ type = 'B')
    (hshort : lengthStr.length < lengthStrSize) :
    Sound p ∧ SoundTurn p (frameTurn p) ∨ ¬ Sound p ∧ UnsoundTurn p (frameTurn p) := by
  have hlength := h.length
  have hmax := strtoull64_le lengthStr
  have hint : intEnd + 2 ≤ 2 ^ 63 := by decide
  rw [ULLONG_MAX] at hmax
  rw [h.sound_iff hlines htype hshort]
  have houtside (hlarge : 2 ^ 63 ≤ strtoull64 lengthStr) : readFrameAt p = none := by
    rw [readFrameAt_of_isCut h, copyFirst, if_neg (by omega)]
    rfl
  by_cases hsize : serial.length + lengthStr.length + 3 + strtoull64 lengthStr + 1 < 2 ^ 64
  case neg =>
    -- the size of the frame is taken for a small number
    right
    have hfits : frameFits p lengthStr (serial.length + lengthStr.length + 3) = true := by
      rw [frameFits, decide_eq_true_iff]
      omega
    rw [frameTurn_of_fits h hlines htype hshort hfits, houtside (by omega)]
    exact ⟨fun hsound => hsize hsound.1.1, .none⟩
  case pos =>
    have hmod : (serial.length + lengthStr.length + 3 + strtoull64 lengthStr + 1) % 2 ^ 64 =
        serial.length + lengthStr.length + 3 + strtoull64 lengthStr + 1 := Nat.mod_eq_of_lt hsize
    by_cases hlt : strtoull64 lengthStr < content.length
    case neg =>
      left
      have hfits : frameFits p lengthStr (serial.length + lengthStr.length + 3) = false := by
        rw [frameFits, hmod, decide_eq_false_iff_not]
        omega
      rw [frameTurn_of_not_fits h hlines hfits]
      refine ⟨⟨⟨hsize, fun hlt' => absurd hlt' hlt⟩, fun hlt' => absurd hlt' hlt⟩, .wait ?_⟩
      rintro frame rest hframe rfl
      rcases hframe.isCut rest with ⟨type', serial', lengthStr', data, hcut, -, hvalue, -⟩
      rcases h.unique hcut with ⟨-, -, rfl, rfl⟩
      rw [hvalue, List.length_append, List.length_cons] at hlt
      omega
    case pos =>
      have hfits : frameFits p lengthStr (serial.length + lengthStr.length + 3) = true := by
        rw [frameFits, hmod, decide_eq_true_iff]
        omega
      rw [frameTurn_of_fits h hlines htype hshort hfits]
      by_cases hsigned : strtoull64 lengthStr < 2 ^ 63
      case neg =>
        right
        rw [houtside (by omega)]
        exact ⟨fun hsound => hsigned (hsound.1.2 hlt), .none⟩
      case pos =>
        rcases readFrameAt_of_content h hsigned hlt with ⟨c, left, hdrop, hread⟩
        have hchar : content[strtoull64 lengthStr]? = some c := by
          have hhead : (content.drop (strtoull64 lengthStr))[0]? = content[strtoull64 lengthStr + 0]? :=
            List.getElem?_drop
          rw [hdrop, List.getElem?_cons_zero, Nat.add_zero] at hhead
          exact hhead.symm
        have hcontent : content = content.take (strtoull64 lengthStr) ++ c :: left := by
          rw [← hdrop, List.take_append_drop]
        have htake : (content.take (strtoull64 lengthStr)).length = strtoull64 lengthStr := by
          rw [List.length_take]
          omega
        rw [hread]
        by_cases hc : c = '\n'
        case pos =>
          left
          rw [if_neg (not_not.mpr hc)]
          refine ⟨⟨⟨hsize, fun _ => hsigned⟩, fun _ => hc ▸ hchar⟩, ?_⟩
          apply SoundTurn.frame
          case frame =>
            exact type :: (serial ++ ('\n' :: (lengthStr ++
              ('\n' :: (content.take (strtoull64 lengthStr) ++ ['\n'])))))
          · exact ⟨type, serial, lengthStr, content.take (strtoull64 lengthStr), rfl, htype,
              h.serial, h.lengthStr, htake.symm, hshort⟩
          · rw [h.eq]
            conv => lhs; rw [hcontent, hc]
            simp
        case neg =>
          right
          rw [if_pos hc]
          constructor
          · intro hsound
            have hbreak := hsound.2 hlt
            rw [hchar] at hbreak
            exact hc (Option.some.inj hbreak)
          · have hleft := congrArg List.length hcontent
            rw [List.length_append, htake] at hleft
            apply UnsoundTurn.ends _ _ (by omega)
            intro hbehind
            cases hbehind with
            | refl =>
                rw [List.length_cons] at hlength hleft
                omega
            | @frame frame rest _ hframe hrest =>
                rcases hframe.isCut rest with
                  ⟨type', serial', lengthStr', data, hcut, -, hvalue, -, hframeLength⟩
                have hle := hrest.length_le
                rcases h.unique hcut with ⟨-, rfl, rfl, rfl⟩
                simp only [List.length_append, List.length_cons] at hleft hle
                omega

theorem soundTurn_or_unsoundTurn (hne : p ≠ []) :
    Sound p ∧ SoundTurn p (frameTurn p) ∨ ¬ Sound p ∧ UnsoundTurn p (frameTurn p) := by
  cases hcut : cutFrame p with
  | none => exact soundTurn_of_cutFrame hne hcut
  | some found =>
      rcases found with ⟨serial, lengthStr, content⟩
      rcases exists_isCut hcut with ⟨type, h⟩
      have hcomplete := hasCompleteMessageAt_of_isCut h
      by_cases hlines : serial.length + lengthStr.length + 2 < intEnd
      case neg =>
        right
        rw [if_neg hlines] at hcomplete
        rw [frameTurn_of_outside hcomplete]
        apply And.intro _ .none
        intro hsound
        have hlength := h.length
        rcases hsound.lines with hle | ⟨serial', lengthStr', content', hsome, hlt⟩
        · omega
        · rw [hcut] at hsome
          cases hsome
          exact hlines hlt
      case pos =>
        by_cases hframe : (type = 'T' ∨ type = 'B') ∧ lengthStr.length < lengthStrSize
        case pos => exact soundTurn_of_frame h hlines hframe.1 hframe.2
        case neg =>
          left
          apply And.intro (h.sound_of_not hlines hframe)
          have hnone := h.noFrame_of_not hframe
          rw [if_pos hlines] at hcomplete
          cases hfits : decide (lengthStr.length < lengthStrSize) &&
              frameFits p lengthStr (serial.length + lengthStr.length + 3) with
          | false =>
              rw [hfits] at hcomplete
              rw [frameTurn_of_incomplete hcomplete]
              exact .wait hnone
          | true =>
              rw [hfits] at hcomplete
              have hshort := of_decide_eq_true (Bool.and_eq_true_iff.mp hfits).1
              have hother : ¬ (type = 'T' ∨ type = 'B') := fun htype => hframe ⟨htype, hshort⟩
              rw [frameTurn_of_complete hcomplete h.head?, if_pos (not_or.mp hother)]
              split
              · exact .ends .complete hnone
              · exact .ends .protocolError hnone

/-! ## The loop -/

variable {h h' : ProxyProtocolHandler} {q left : Payload} {turns : Nat}

theorem parseEmitIncomingAt_of_turn (hne : p ≠ []) :
    parseEmitIncomingAt (turns + 1) h p =
      match frameTurn p with
      | none => none
      | some .wait => some (.again, h, p)
      | some (.ends status left) => some (status, h, left)
      | some (.frame serial data left) => parseEmitIncomingAt turns (h.receive serial data) left := by
  rw [parseEmitIncomingAt, if_neg (mt List.eq_nil_of_length_eq_zero hne)]
  cases frameTurn p with
  | none => rfl
  | some turn => cases turn <;> rfl

theorem noFrame_nil : NoFrame [] := noFrame_of_cutFrame rfl

theorem WholeFrame.ne_nil {frame : Payload} (hframe : WholeFrame frame) : frame ≠ [] := by
  rcases hframe.exists_split with ⟨type, serial, lengthStr, data, rfl, -⟩
  exact List.cons_ne_nil _ _

theorem WholeFrame.length_pos {frame : Payload} (hframe : WholeFrame frame) : 0 < frame.length :=
  List.length_pos_iff.mpr hframe.ne_nil

/-- Where all that comes can be parsed, it is parsed up to where no whole frame is. -/
theorem parseEmitIncomingAt_of_sound (hturns : p.length < turns)
    (hsound : ∀ q, Behind p q → Sound q) (h : ProxyProtocolHandler) :
    ∃ status h' left, parseEmitIncomingAt turns h p = some (status, h', left) ∧ Behind p left := by
  induction turns generalizing p h with
  | zero => exact absurd hturns (Nat.not_lt_zero _)
  | succ turns ih =>
      by_cases hne : p = []
      case pos =>
        rw [hne]
        exact ⟨.again, h, [], rfl, .refl []⟩
      case neg =>
        rw [parseEmitIncomingAt_of_turn hne]
        rcases soundTurn_or_unsoundTurn hne with ⟨-, hturn⟩ | ⟨hnot, -⟩
        · generalize frameTurn p = turn at hturn
          cases hturn with
          | wait => exact ⟨_, _, _, rfl, .refl p⟩
          | ends => exact ⟨_, _, _, rfl, .refl p⟩
          | @frame frame serial data left hframe heq =>
              subst heq
              have hpos := hframe.length_pos
              rw [List.length_append] at hturns
              rcases ih (p := left) (by omega) (fun q hq => hsound q (.frame hframe hq))
                (h.receive serial data) with ⟨status, h', rest, hparse, hbehind⟩
              exact ⟨status, h', rest, hparse, .frame hframe hbehind⟩
        · exact absurd (hsound p (.refl p)) hnot

/-- Nothing is put back. -/
theorem length_le_of_parse {status : ParseStatus}
    (hparse : parseEmitIncomingAt turns h p = some (status, h', left)) :
    left.length ≤ p.length := by
  induction turns generalizing p h with
  | zero =>
      cases hparse
      exact Nat.le_refl _
  | succ turns ih =>
      by_cases hne : p = []
      case pos =>
        rw [hne] at hparse
        cases hparse
        exact Nat.zero_le _
      case neg =>
        rw [parseEmitIncomingAt_of_turn hne] at hparse
        rcases soundTurn_or_unsoundTurn hne with ⟨-, hturn⟩ | ⟨-, hturn⟩
        · generalize frameTurn p = turn at hturn hparse
          cases hturn with
          | wait =>
              cases hparse
              exact Nat.le_refl _
          | ends =>
              cases hparse
              exact Nat.le_refl _
          | @frame frame serial data rest hframe heq =>
              have hle := ih hparse
              rw [heq, List.length_append]
              omega
        · generalize frameTurn p = turn at hturn hparse
          cases hturn with
          | none => cases hparse
          | ends status left hle =>
              cases hparse
              exact hle

theorem behind_nil (hbehind : Behind [] q) : q = [] := noFrame_nil.behind hbehind

theorem sound_nil : Sound [] := sound_of_cutFrame rfl (Nat.zero_le _)

/-- What is behind a whole frame and not the frame itself. -/
theorem Behind.of_frame {frame : Payload} (hframe : WholeFrame frame)
    (hbehind : Behind (frame ++ p) q) : q = frame ++ p ∨ Behind p q := by
  generalize heq : frame ++ p = text at hbehind
  cases hbehind with
  | refl => exact .inl rfl
  | @frame frame' p' _ hframe' hrest =>
      rcases hframe.unique hframe' heq with ⟨-, rfl⟩
      exact .inr hrest

/-- Where something comes that cannot be parsed, something outside is read, or something is consumed
that is no whole frame. -/
theorem not_behind_of_parse {status : ParseStatus} (hbehind : Behind p q) (hnot : ¬ Sound q)
    (hturns : p.length < turns)
    (hparse : parseEmitIncomingAt turns h p = some (status, h', left)) : ¬ Behind p left := by
  induction turns generalizing p h with
  | zero => exact absurd hturns (Nat.not_lt_zero _)
  | succ turns ih =>
      have hne : p ≠ [] := by
        rintro rfl
        rw [behind_nil hbehind] at hnot
        exact hnot sound_nil
      rw [parseEmitIncomingAt_of_turn hne] at hparse
      rcases soundTurn_or_unsoundTurn hne with ⟨hsound, hturn⟩ | ⟨-, hturn⟩
      · have hother : q ≠ p := fun heq => hnot (heq ▸ hsound)
        generalize frameTurn p = turn at hturn hparse
        cases hturn with
        | wait hnone => exact absurd (hnone.behind hbehind) hother
        | ends _ hnone => exact absurd (hnone.behind hbehind) hother
        | @frame frame serial data rest hframe heq =>
            subst heq
            have hpos := hframe.length_pos
            have hle := length_le_of_parse hparse
            rw [List.length_append] at hturns
            intro hleft
            rcases hleft.of_frame hframe with rfl | hleft
            · rw [List.length_append] at hle
              omega
            · rcases hbehind.of_frame hframe with heq | hrest
              · exact hother heq
              · exact ih hrest (by omega) hparse hleft
      · generalize frameTurn p = turn at hturn hparse
        cases hturn with
        | none => cases hparse
        | ends status left hle hnot =>
            cases hparse
            exact hnot

/-! ## A body in pieces -/

theorem Behind.append (hbehind : Behind p q) (more : Payload) : Behind (p ++ more) (q ++ more) := by
  rcases behind_iff.mp hbehind with ⟨frames, hall, rfl⟩
  rw [List.append_assoc]
  exact behind_iff.mpr ⟨frames, hall, rfl⟩

theorem Behind.trans (hbehind : Behind p q) (hrest : Behind q left) : Behind p left := by
  induction hbehind with
  | refl p => exact hrest
  | frame hframe _ ih => exact .frame hframe (ih hrest)

theorem IsCut.append (hcut : IsCut p type serial lengthStr content) (more : Payload) :
    IsCut (p ++ more) type serial lengthStr (content ++ more) :=
  ⟨by rw [hcut.eq]; simp, hcut.serial, hcut.lengthStr⟩

/-- The lines have not come to their end before all of them has come. -/
theorem length_le_of_cutFrame {more : Payload} (hnone : cutFrame p = none)
    (hcut : IsCut (p ++ more) type serial lengthStr content) :
    p.length ≤ serial.length + lengthStr.length + 2 := by
  by_contra hlong
  have hstart : type :: (serial ++ ('\n' :: (lengthStr ++ ['\n']))) <+: p := by
    refine List.prefix_of_prefix_length_le ?_ (List.prefix_append p more) ?_
    · rw [hcut.eq]
      exact ⟨content, by simp⟩
    · simp only [List.length_cons, List.length_append, List.length_nil]
      omega
  rcases hstart with ⟨tail, htail⟩
  have hcut' : IsCut p type serial lengthStr tail :=
    ⟨by rw [← htail]; simp, hcut.serial, hcut.lengthStr⟩
  rw [hcut'.cutFrame] at hnone
  cases hnone

theorem IsCut.lines_of_sound (hcut : IsCut p type serial lengthStr content) (hsound : Sound p) :
    serial.length + lengthStr.length + 2 < intEnd := by
  have hlength := hcut.length
  rcases hsound.lines with hle | ⟨serial', lengthStr', content', hsome, hlt⟩
  · omega
  · cases hcut.cutFrame.symm.trans hsome
    exact hlt

/-- What can be parsed can be parsed before the rest of it has come. -/
theorem Sound.of_append {more : Payload} (hsound : Sound (p ++ more)) : Sound p := by
  by_cases hne : p = []
  case pos =>
    rw [hne]
    exact sound_nil
  case neg =>
    cases hcut : cutFrame p with
    | none =>
        apply sound_of_cutFrame hcut
        rcases hsound.lines with hle | ⟨serial, lengthStr, content, hsome, hlt⟩
        · rw [List.length_append] at hle
          omega
        · rcases exists_isCut hsome with ⟨type, hmore⟩
          have hle := length_le_of_cutFrame hcut hmore
          omega
    | some found =>
        rcases found with ⟨serial, lengthStr, content⟩
        rcases exists_isCut hcut with ⟨type, h⟩
        have hmore := h.append more
        have hlines := hmore.lines_of_sound hsound
        by_cases hframe : (type = 'T' ∨ type = 'B') ∧ lengthStr.length < lengthStrSize
        case neg => exact h.sound_of_not hlines hframe
        case pos =>
          rw [hmore.sound_iff hlines hframe.1 hframe.2, List.length_append] at hsound
          rw [h.sound_iff hlines hframe.1 hframe.2]
          refine ⟨⟨hsound.1.1, fun hlt => hsound.1.2 (by omega)⟩, fun hlt => ?_⟩
          have hbreak := hsound.2 (by omega)
          rw [List.getElem?_append_left hlt] at hbreak
          exact hbreak

/-- A whole frame is not changed by what comes behind it. -/
theorem Sound.append_frame {frame : Payload} (hframe : WholeFrame frame)
    (hsound : Sound (frame ++ p)) (more : Payload) : Sound (frame ++ (p ++ more)) := by
  rcases hframe.isCut p with ⟨type, serial, lengthStr, data, hcut, htype, hvalue, hshort, -⟩
  have hmore := hcut.append more
  have hlines := hcut.lines_of_sound hsound
  rw [← List.append_assoc]
  rw [hcut.sound_iff hlines htype hshort, List.length_append, List.length_cons] at hsound
  rw [hmore.sound_iff hlines htype hshort]
  have hlt : strtoull64 lengthStr < data.length + (p.length + 1) := by omega
  refine ⟨⟨hsound.1.1, fun _ => hsound.1.2 hlt⟩, fun _ => ?_⟩
  rw [List.getElem?_append_left (by simp only [List.length_append, List.length_cons]; omega)]
  exact hsound.2 hlt

/-- What is behind some frames when more has come is behind them, or behind what is left. -/
theorem sound_of_behind_append {more : Payload} (hbehind : Behind p left)
    (hsound : ∀ q, Behind p q → Sound q) (hleft : ∀ q, Behind (left ++ more) q → Sound q) :
    ∀ q, Behind (p ++ more) q → Sound q := by
  induction hbehind with
  | refl p => exact hleft
  | @frame frame p left hframe _ ih =>
      intro q hq
      rw [List.append_assoc] at hq
      rcases hq.of_frame hframe with rfl | hq
      · exact (hsound _ (.refl _)).append_frame hframe more
      · exact ih (fun q hq => hsound q (.frame hframe hq)) hleft q hq

theorem safelyFed_iff_of_buffer {buffer : Payload} (pieces : List Payload)
    (hbuffer : ∀ q, Behind buffer q → Sound q) (h : ProxyProtocolHandler) :
    SafelyFed h buffer pieces ↔ ∀ q, Behind (buffer ++ pieces.flatten) q → Sound q := by
  induction pieces generalizing buffer h with
  | nil =>
      rw [List.flatten_nil, List.append_nil]
      exact ⟨fun _ => hbuffer, fun _ => trivial⟩
  | cons piece pieces ih =>
      rw [List.flatten_cons, ← List.append_assoc, SafelyFed]
      by_cases hall : ∀ q, Behind (buffer ++ piece) q → Sound q
      case pos =>
        rcases parseEmitIncomingAt_of_sound (Nat.lt_succ_self _) hall h with
          ⟨status, h', left, hparse, hbehind⟩
        have hleft : ∀ q, Behind left q → Sound q := fun q hq => hall q (hbehind.trans hq)
        constructor
        · rintro ⟨status', h'', left', hparse', -, hfed⟩
          cases hparse.symm.trans hparse'
          exact sound_of_behind_append hbehind hall ((ih hleft h').mp hfed)
        · intro hsound
          refine ⟨status, h', left, hparse, behind_iff.mp hbehind, ?_⟩
          exact (ih hleft h').mpr fun q hq =>
            hsound q ((hbehind.append pieces.flatten).trans hq)
      case neg =>
        rcases not_forall.mp hall with ⟨q, hq⟩
        rcases Classical.not_imp.mp hq with ⟨hbehind, hnot⟩
        constructor
        · rintro ⟨status, h', left, hparse, hframes, -⟩
          exact absurd (behind_iff.mpr hframes)
            (not_behind_of_parse hbehind hnot (Nat.lt_succ_self _) hparse)
        · intro hsound
          exact absurd (hsound _ (hbehind.append pieces.flatten)).of_append hnot

/-- A body is parsed within its bounds and by whole frames, however it is cut, if and only if all
that comes behind whole frames can be parsed. -/
theorem safelyFed_iff (h : ProxyProtocolHandler) (pieces : List Payload) :
    SafelyFed h [] pieces ↔ ∀ q, Behind pieces.flatten q → Sound q :=
  safelyFed_iff_of_buffer pieces (fun _ hq => behind_nil hq ▸ sound_nil) h

/-- A message is complete only when as much as it says is there, unless its size is no number of 64
bits. -/
theorem length_le_of_hasCompleteMessageAt (hcut : IsCut p type serial lengthStr content)
    (hsize : serial.length + lengthStr.length + 3 + strtoull64 lengthStr + 1 < 2 ^ 64)
    (hcomplete : hasCompleteMessageAt p = some true) :
    serial.length + lengthStr.length + 3 + strtoull64 lengthStr + 1 ≤ p.length := by
  rw [hasCompleteMessageAt_of_isCut hcut] at hcomplete
  split at hcomplete
  · have hboth := Bool.and_eq_true_iff.mp (Option.some.inj hcomplete)
    have hfits := of_decide_eq_true hboth.2
    rw [Nat.mod_eq_of_lt hsize] at hfits
    exact hfits
  · cases hcomplete

/-! ## Where all numbers fit -/

/-- The numbers of a frame, and the size that they give it, are numbers of 64 bits. -/
structure NumbersFit (p : Payload) : Prop where
  numbers : ∀ serial lengthStr content, cutFrame p = some (serial, lengthStr, content) →
    strtoull64 serial = strtoull serial ∧ strtoull64 lengthStr = strtoull lengthStr ∧
      serial.length + lengthStr.length + 3 + strtoull64 lengthStr + 1 < 2 ^ 64

theorem hasCompleteMessageAt_eq (hne : p ≠ []) (hsound : Sound p) (hfit : NumbersFit p) :
    hasCompleteMessageAt p = some (hasCompleteMessage p) := by
  cases hcut : cutFrame p with
  | none =>
      match p with
      | [type] =>
          rw [hasCompleteMessage]
          exact congrArg some (List.cons_beq_cons.trans (Bool.and_true _)).symm
      | type :: next :: tail =>
          have hlength : (type :: next :: tail).length ≤ intEnd := by
            rcases hsound.lines with hle | ⟨serial, lengthStr, content, hsome, -⟩
            · exact hle
            · cases hcut.symm.trans hsome
          rw [hasCompleteMessageAt_of_cutFrame hcut (by simp), if_pos hlength,
            hasCompleteMessage, if_neg (by simp), hcut]
  | some found =>
      rcases found with ⟨serial, lengthStr, content⟩
      rcases exists_isCut hcut with ⟨type, h⟩
      have hlength := h.length
      rcases hfit.numbers _ _ _ hcut with ⟨-, hvalue, hsize⟩
      rw [hasCompleteMessageAt_of_isCut h, if_pos (h.lines_of_sound hsound), hasCompleteMessage,
        if_neg (by omega), hcut, frameFits, Nat.mod_eq_of_lt hsize, hvalue]
      have hsame : serial.length + lengthStr.length + 3 + strtoull lengthStr + 1 ≤ p.length ↔
          strtoull lengthStr + 1 ≤ content.length := by omega
      simp only [hsame]

theorem parse_of_complete (hne : p ≠ []) (hsound : ∀ q, Behind p q → Sound q)
    (hfit : ∀ q, Behind p q → NumbersFit q) (hcomplete : hasCompleteMessageAt p = some true)
    (hmessage : hasCompleteMessage p = true)
    (ih : ∀ {p : Payload}, (∀ q, Behind p q → Sound q) → (∀ q, Behind p q → NumbersFit q) →
      ∀ h, parseEmitIncomingAt turns h p = some (parseEmitIncoming turns h p))
    (h : ProxyProtocolHandler) :
    (match frameTurn p with
      | none => none
      | some .wait => some (.again, h, p)
      | some (.ends status left) => some (status, h, left)
      | some (.frame serial data left) =>
          parseEmitIncomingAt turns (h.receive serial data) left) =
      some (if p.head? = some '.' then (.complete, h, p)
        else if p.head? ≠ some 'T' ∧ p.head? ≠ some 'B' then (.protocolError, h, p)
        else
          match cutFrame p with
          | none => (.protocolError, h, p)
          | some (serialStr, lengthStr, content) =>
              let len := strtoull lengthStr
              match content.drop len with
              | '\n' :: behind =>
                  parseEmitIncoming turns (h.receive (strtoull serialStr) (content.take len)) behind
              | behind => (.protocolError, h, behind)) := by
  rcases List.exists_cons_of_ne_nil hne with ⟨type, tail, hp⟩
  have hhead : p.head? = some type := by
    rw [hp]
    rfl
  have hturn := frameTurn_of_complete hcomplete hhead
  rw [hhead]
  simp only [Option.some.injEq, ne_eq]
  by_cases hdot : type = '.'
  case pos =>
    rw [if_pos hdot] at hturn
    rw [hturn, if_pos hdot]
  case neg =>
    rw [if_neg hdot] at hturn
    rw [if_neg hdot]
    by_cases hother : type ≠ 'T' ∧ type ≠ 'B'
    case pos =>
      rw [if_pos hother] at hturn
      rw [hturn, if_pos hother]
    case neg =>
      rw [if_neg hother] at hturn
      rw [if_neg hother]
      have htype : type = 'T' ∨ type = 'B' := by
        by_contra hnone
        exact hother (not_or.mp hnone)
      have hlong : ¬ p.length < 2 := by
        intro hshort
        rw [hasCompleteMessage, if_pos hshort, hp] at hmessage
        exact hdot (List.cons.inj (eq_of_beq hmessage)).1
      rw [hasCompleteMessage, if_neg hlong] at hmessage
      cases hcut : cutFrame p with
      | none =>
          rw [hcut] at hmessage
          cases hmessage
      | some found =>
          rcases found with ⟨serial, lengthStr, content⟩
          rcases exists_isCut hcut with ⟨type', hiscut⟩
          cases hhead.symm.trans hiscut.head?
          rw [hcut] at hmessage
          rcases (hfit p (.refl p)).numbers _ _ _ hcut with ⟨hserial, hvalue, -⟩
          have hboth := Bool.and_eq_true_iff.mp hmessage
          have hshort := of_decide_eq_true hboth.1
          have hle := of_decide_eq_true hboth.2
          rw [← hvalue] at hle
          have hall := (hiscut.sound_iff (hiscut.lines_of_sound (hsound p (.refl p))) htype
            hshort).mp (hsound p (.refl p))
          rcases readFrameAt_of_content hiscut (hall.1.2 hle) hle with ⟨c, left, hdrop, hread⟩
          have hc : c = '\n' := by
            have hbreak := hall.2 hle
            have hfirst : (content.drop (strtoull64 lengthStr))[0]? =
                content[strtoull64 lengthStr + 0]? := List.getElem?_drop
            rw [hdrop, List.getElem?_cons_zero, Nat.add_zero, hbreak] at hfirst
            exact Option.some.inj hfirst
          rw [hc] at hdrop hread
          rw [if_neg (not_not.mpr rfl)] at hread
          have hframe : SoundTurn p (frameTurn p) := by
            rcases soundTurn_or_unsoundTurn hne with ⟨-, hframe⟩ | ⟨hnot, -⟩
            · exact hframe
            · exact absurd (hsound p (.refl p)) hnot
          rw [hturn, hread] at hframe
          rw [hturn, hread]
          cases hframe with
          | @frame frame _ _ _ hwhole heq =>
              have hrest (q : Payload) (hq : Behind left q) : Behind p q := heq ▸ .frame hwhole hq
              simp only [← hvalue, ← hserial, hdrop]
              exact ih (fun q hq => hsound q (hrest q hq)) (fun q hq => hfit q (hrest q hq)) _

/-- Without an index that is outside and a number that is too large, the loop is the one over the
messages themselves. -/
theorem parseEmitIncomingAt_eq (hsound : ∀ q, Behind p q → Sound q)
    (hfit : ∀ q, Behind p q → NumbersFit q) (h : ProxyProtocolHandler) :
    parseEmitIncomingAt turns h p = some (parseEmitIncoming turns h p) := by
  induction turns generalizing p h with
  | zero => rfl
  | succ turns ih =>
      by_cases hne : p = []
      case pos =>
        rw [hne]
        rfl
      case neg =>
        have hcomplete := hasCompleteMessageAt_eq hne (hsound p (.refl p)) (hfit p (.refl p))
        rw [parseEmitIncomingAt_of_turn hne, parseEmitIncoming, if_neg hne]
        cases hmessage : hasCompleteMessage p with
        | false =>
            rw [hmessage] at hcomplete
            rw [frameTurn_of_incomplete hcomplete]
            rfl
        | true =>
            rw [hmessage] at hcomplete
            exact parse_of_complete hne hsound hfit hcomplete hmessage ih h

end

end CoolOnline.Proxy
