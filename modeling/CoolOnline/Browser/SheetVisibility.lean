import CoolOnline.Browser.SheetDimension
import CoolOnline.Library.Text
import Mathlib.Data.List.Forall2

/-! # Which columns and rows are visible

The lists of spans in `browser/src/layer/tile/SheetGeometry.ts`: how they are read from what core
has encoded, how those of the hidden and of the filtered elements are united, and how the sizes of
both become zero. The numbers in the texts have no sign.
-/

namespace CoolOnline

open Run

namespace SheetGeometry

def parseInt (text : List Char) : Option Nat := Text.leadingNat (text.dropWhile Text.isSpace)

def trim (text : List Char) : List Char :=
  ((text.dropWhile Text.isSpace).reverse.dropWhile Text.isSpace).reverse

/-- `_spanlist` has where each span ends. The bit changes from each to the next. -/
structure BoolSpanList where
  startBit : Bool
  spanlist : List Nat
deriving DecidableEq

/-- A pair of numbers, value first. -/
def parseSpan (split : List Char) : Option (Run Nat) :=
  match split.splitOn ':' with
  | [value, index] => do
      let index ← parseInt index
      let value ← parseInt value
      return ⟨index, value⟩
  | _ => none

/-- `parseSpanListEncoding` with `booleanValue` false. -/
def parseSpanList (encoding : List Char) : Option (List (Run Nat)) :=
  let splits := encoding.splitOn ' '
  if splits.length < 2 then none
  else splits.dropLast.mapM parseSpan

/-- `parseSpanListEncoding` with `booleanValue` true. -/
def parseBoolSpanList (encoding : List Char) : Option BoolSpanList :=
  let splits := encoding.splitOn ' '
  if splits.length < 2 then none
  else
    match (splits.headD []).splitOn ':' with
    | [startBitInt, first] => do
        let startBitInt ← parseInt startBitInt
        let first ← parseInt first
        let entries ← splits.tail.dropLast.mapM parseInt
        return ⟨startBitInt != 0, first :: entries⟩
    | _ => none

/-- Whether `DimensionOutlines.load` returns true. -/
def loadOutlines (encoding : List Char) : Bool :=
  let levels := encoding.splitOn ' '
  levels.length < 2 || levels.dropLast.all fun level =>
    let collectionSplits := level.splitOn ','
    2 ≤ collectionSplits.length && collectionSplits.dropLast.all fun collection =>
      let entrySplits := collection.splitOn ':'
      4 ≤ entrySplits.length && (entrySplits.take 4).all fun entry => (parseInt entry).isSome

namespace BoolSpanList

/-- The loop of `union`, with what is left of both lists. -/
def unionLoop (maxElement : Nat) : Nat → Bool → Bool → Bool → List Nat → List Nat → List Nat
  | fuel + 1, thisBit, otherBit, resultBit, thisElement :: this, otherElement :: other =>
      if thisElement < otherElement then
        push maxElement thisElement resultBit (!thisBit || otherBit) thisElement ++
          unionLoop maxElement fuel (!thisBit) otherBit (!thisBit || otherBit) this
            (otherElement :: other)
      else if otherElement < thisElement then
        push maxElement otherElement resultBit (thisBit || !otherBit) otherElement ++
          unionLoop maxElement fuel thisBit (!otherBit) (thisBit || !otherBit)
            (thisElement :: this) other
      else
        push maxElement otherElement resultBit (!thisBit || !otherBit) otherElement ++
          unionLoop maxElement fuel (!thisBit) (!otherBit) (!thisBit || !otherBit) this other
  | _, _, _, _, _, _ => []

def union (this other : BoolSpanList) : Option BoolSpanList :=
  if this.spanlist.getLast? ≠ other.spanlist.getLast? then none
  else
    let maxElement := this.spanlist.getLast?.getD 0
    let resultBit := this.startBit || other.startBit
    some ⟨resultBit, unionLoop maxElement (this.spanlist.length + other.spanlist.length)
      this.startBit other.startBit resultBit this.spanlist other.spanlist⟩

end BoolSpanList

/-- What the value of the result is at the span that is in front now. -/
def nextResultValue (resultValue : Nat) (zeroBit : Bool) : List (Run Nat) → Nat
  | [] => resultValue
  | span :: _ => if zeroBit then 0 else span.value

/-- The loop of `applyZeroValues`, with what is left of both lists. -/
def applyZeroLoop (maxElement : Nat) : Nat → Nat → Bool → List (Run Nat) → List Nat → List (Run Nat)
  | fuel + 1, resultValue, zeroBit, span :: this, otherElement :: other =>
      let thisElement := span.index
      if thisElement < otherElement then
        let next := nextResultValue resultValue zeroBit this
        push maxElement thisElement resultValue next ⟨thisElement, resultValue⟩ ++
          applyZeroLoop maxElement fuel next zeroBit this (otherElement :: other)
      else if otherElement < thisElement then
        let next := nextResultValue resultValue (!zeroBit) (span :: this)
        push maxElement otherElement resultValue next ⟨otherElement, resultValue⟩ ++
          applyZeroLoop maxElement fuel next (!zeroBit) (span :: this) other
      else
        let next := nextResultValue resultValue (!zeroBit) this
        push maxElement otherElement resultValue next ⟨otherElement, resultValue⟩ ++
          applyZeroLoop maxElement fuel next (!zeroBit) this other
  | _, _, _, _, _ => []

/-- `none` also where a list of no spans makes the code throw. -/
def applyZeroValues (this : List (Run Nat)) (other : BoolSpanList) : Option (List (Run Nat)) :=
  match this.head?, this.getLast? with
  | some first, some last =>
      if other.spanlist.getLast? ≠ some last.index then none
      else
        some (applyZeroLoop last.index (this.length + other.spanlist.length)
          (if other.startBit then 0 else first.value) other.startBit this other.spanlist)
  | _, _ => none

structure SheetDimensionCoreData where
  sizes : Option (List Char)
  hidden : Option (List Char)
  filtered : Option (List Char)
  groups : Option (List Char)

/-- The lists of a `SheetDimension`. -/
structure DimensionSpans where
  sizes : List (Run Nat)
  hidden : BoolSpanList
  filtered : BoolSpanList
  visibleSizes : Option (List (Run Nat))

namespace DimensionSpans

def updateVisible (dim : DimensionSpans) : DimensionSpans :=
  { dim with
    visibleSizes := (dim.hidden.union dim.filtered).bind (applyZeroValues dim.sizes) }

/-- A list is replaced if its text can be read, and the visible sizes are made anew if all of them
can. -/
def update (dim : DimensionSpans) (json : SheetDimensionCoreData) : Bool × DimensionSpans :=
  let sizes := json.sizes.map parseSpanList
  let hidden := json.hidden.map parseBoolSpanList
  let filtered := json.filtered.map parseBoolSpanList
  let regenerateVisibleSizes := json.sizes.isSome || json.hidden.isSome || json.filtered.isSome
  let loadsOK := sizes.all Option.isSome && hidden.all Option.isSome &&
    filtered.all Option.isSome && json.groups.all loadOutlines
  let dim := { dim with
    sizes := sizes.join.getD dim.sizes
    hidden := hidden.join.getD dim.hidden
    filtered := filtered.join.getD dim.filtered }
  (loadsOK, if loadsOK && regenerateVisibleSizes then dim.updateVisible else dim)

end DimensionSpans

/-- The last visible index, found from the text. The spans of it are hidden and visible in turn, and
the first is hidden if the text begins with a one. -/
def checkMaxIndex (hidden : List Char) : Option Nat :=
  let hiddenInfo := trim hidden
  let isFirstHidden := hiddenInfo.head? == some '1'
  let splitted := hiddenInfo.splitOn ' '
  let isLastHidden := splitted.length % 2 == 0 && !isFirstHidden ||
    splitted.length % 2 == 1 && isFirstHidden
  let first := (((splitted.headD []).splitOn ':')[1]?).bind parseInt
  if splitted.length = 1 then if isFirstHidden then some 0 else first
  else if !isLastHidden then (splitted[splitted.length - 1]?).bind parseInt
  else if splitted.length = 2 then first
  else (splitted[splitted.length - 2]?).bind parseInt

/-! ## The merged lists -/

section Merge

variable {a : Nat → Nat} {b c : Nat → Bool} {maxElement start pos stop fuel : Nat}

theorem unionLoop_nil {thisBit otherBit resultBit : Bool} {this other : List Nat}
    (h : this = [] ∨ other = []) :
    BoolSpanList.unionLoop maxElement fuel thisBit otherBit resultBit this other = [] := by
  cases fuel with
  | zero => rfl
  | succ fuel =>
      rcases h with rfl | rfl
      · rfl
      · cases this <;> rfl

/-- Each turn goes on to the end of the span that ends first. -/
theorem unionLoop_covers {thisBit otherBit resultBit : Bool} {this other : List Nat}
    (hthis : Covers b pos stop (alternate thisBit this))
    (hother : Covers c pos stop (alternate otherBit other)) (hmax : maxElement + 1 = stop)
    (hfuel : this.length + other.length ≤ fuel)
    (hopen : Open (fun k => b k || c k) start pos stop resultBit) :
    Covers (fun k => b k || c k) start stop
      (alternate resultBit
        (BoolSpanList.unionLoop maxElement fuel thisBit otherBit resultBit this other)) := by
  induction fuel generalizing start pos thisBit otherBit resultBit this other with
  | zero =>
      rw [List.length_eq_zero_iff.mp (by omega : this.length = 0)] at hthis
      exact hopen.closed hthis
  | succ fuel ih =>
      have hstep : ∀ {last thisBit' otherBit' this' other'},
          Both b c pos last stop thisBit otherBit (alternate thisBit' this')
            (alternate otherBit' other') → this'.length + other'.length ≤ fuel →
          Covers (fun k => b k || c k) start stop (alternate resultBit
            (push maxElement last resultBit (thisBit' || otherBit') last ++
              BoolSpanList.unionLoop maxElement fuel thisBit' otherBit' (thisBit' || otherBit')
                this' other')) := by
        intro last thisBit' otherBit' this' other' hboth hfuel'
        have hend : maxElement ≤ last → BoolSpanList.unionLoop maxElement fuel thisBit' otherBit'
            (thisBit' || otherBit') this' other' = [] := by
          intro hle
          have hlt := hboth.lt_stop
          have hleft := hboth.left
          rw [show last + 1 = stop by omega] at hleft
          have hnil := congrArg (List.map Run.index) hleft.eq_nil
          rw [map_index_alternate] at hnil
          exact unionLoop_nil (.inl hnil)
        rw [alternate_push hend]
        refine hboth.covers_push (f := fun x y => x || y) hopen hmax (fun hlt => ?_)
          fun start' hopen' => ih hboth.left hboth.right hfuel' hopen'
        simp only [hboth.left.alternate_start hlt, hboth.right.alternate_start hlt]
      cases this with
      | nil => exact hopen.closed hthis
      | cons thisElement this =>
          cases other with
          | nil => exact hopen.closed hother
          | cons otherElement other =>
              rw [List.length_cons, List.length_cons] at hfuel
              rw [BoolSpanList.unionLoop]
              split
              case isTrue hlt =>
                exact hstep (hthis.both_left hother hlt) (by rw [List.length_cons]; omega)
              case isFalse hge =>
                split
                case isTrue hlt =>
                  exact hstep (hthis.both_right hother hlt) (by rw [List.length_cons]; omega)
                case isFalse hle =>
                  have heq : thisElement = otherElement := by omega
                  exact hstep (hthis.both_end hother heq) (by omega)

theorem nextResultValue_eq {resultValue : Nat} {zeroBit : Bool} {this : List (Run Nat)}
    (hthis : Covers a pos stop this) (hlt : pos < stop) :
    nextResultValue resultValue zeroBit this = if zeroBit then 0 else a pos := by
  cases this with
  | nil => exact absurd hthis (Nat.ne_of_lt hlt)
  | cons span this => rw [nextResultValue, hthis.value_start]

/-- The sizes up to the first end of a span are the same, and from it on both lists go on. -/
theorem applyZeroLoop_covers {zeroBit : Bool} {resultValue : Nat} {this : List (Run Nat)}
    {other : List Nat} (hthis : Covers a pos stop this)
    (hother : Covers c pos stop (alternate zeroBit other)) (hmax : maxElement + 1 = stop)
    (hfuel : this.length + other.length ≤ fuel)
    (hopen : Open (fun k => if c k then 0 else a k) start pos stop resultValue) :
    Covers (fun k => if c k then 0 else a k) start stop
      (applyZeroLoop maxElement fuel resultValue zeroBit this other) := by
  induction fuel generalizing start pos zeroBit resultValue this other with
  | zero =>
      rw [List.length_eq_zero_iff.mp (by omega : this.length = 0)] at hthis
      exact hopen.closed hthis
  | succ fuel ih =>
      have hstep : ∀ {size last zeroBit' this' other'},
          Both a c pos last stop size zeroBit this' (alternate zeroBit' other') →
          this'.length + other'.length ≤ fuel →
          Covers (fun k => if c k then 0 else a k) start stop
            (push maxElement last resultValue (nextResultValue resultValue zeroBit' this')
                ⟨last, resultValue⟩ ++
              applyZeroLoop maxElement fuel (nextResultValue resultValue zeroBit' this') zeroBit'
                this' other') := by
        intro size last zeroBit' this' other' hboth hfuel'
        refine hboth.covers_push (f := fun x y => if y then 0 else x) hopen hmax (fun hlt => ?_)
          fun start' hopen' => ih hboth.left hboth.right hfuel' hopen'
        rw [nextResultValue_eq hboth.left hlt, hboth.right.alternate_start hlt]
      cases this with
      | nil => exact hopen.closed hthis
      | cons span this =>
          cases other with
          | nil => exact hopen.closed hother
          | cons otherElement other =>
              rw [List.length_cons, List.length_cons] at hfuel
              rw [applyZeroLoop]
              dsimp only
              split
              case isTrue hlt =>
                exact hstep (hthis.both_left hother hlt) (by rw [List.length_cons]; omega)
              case isFalse hge =>
                split
                case isTrue hlt =>
                  exact hstep (hthis.both_right hother hlt) (by rw [List.length_cons]; omega)
                case isFalse hle =>
                  have heq : span.index = otherElement := by omega
                  exact hstep (hthis.both_end hother heq) (by omega)

end Merge

/-- Whether an element is in a span with the bit. -/
def BoolSpanList.has (spans : BoolSpanList) : Nat → Bool :=
  valueAt (alternate spans.startBit spans.spanlist)

/-- The spans of the elements up to `last`. -/
def EndsAt (last : Nat) (ends : List Nat) : Prop :=
  ends.Pairwise (· < ·) ∧ ends.getLast? = some last

theorem EndsAt.ne_nil {last : Nat} {ends : List Nat} (h : EndsAt last ends) : ends ≠ [] := by
  intro hnil
  have hlast := h.2
  rw [hnil] at hlast
  cases hlast

theorem BoolSpanList.covers_has {spans : BoolSpanList} {last : Nat}
    (h : EndsAt last spans.spanlist) :
    Covers spans.has 0 (last + 1) (alternate spans.startBit spans.spanlist) := by
  have hmap := map_index_alternate spans.startBit spans.spanlist
  exact covers_of_ends (by rw [hmap]; exact h.1) (by rw [hmap]; exact h.2)

theorem open_zero {α : Type*} {v : Nat → α} {stop : Nat} {value : α} (hstop : 0 < stop)
    (h : v 0 = value) : Open v 0 0 stop value :=
  ⟨Nat.le_refl 0, fun heq => absurd heq (Nat.ne_of_lt hstop), fun k _ hk _ => by
    rw [Nat.le_zero.mp hk, h]⟩

theorem union_covers {this other : BoolSpanList} {last : Nat} (hthis : EndsAt last this.spanlist)
    (hother : EndsAt last other.spanlist) :
    ∃ result, this.union other = some result ∧ result.spanlist.getLast? = some last ∧
      Covers (fun k => this.has k || other.has k) 0 (last + 1)
        (alternate result.startBit result.spanlist) := by
  have hb := BoolSpanList.covers_has hthis
  have hc := BoolSpanList.covers_has hother
  have hresult := unionLoop_covers hb hc rfl (Nat.le_refl _) (open_zero (Nat.succ_pos last) (by
      rw [hb.alternate_start (Nat.succ_pos last), hc.alternate_start (Nat.succ_pos last)]))
  rw [BoolSpanList.union, hthis.2, hother.2, if_neg (by simp)]
  refine ⟨_, rfl, ?_, hresult⟩
  have hends := hresult.getLast?_map_index (Nat.zero_le last)
  rwa [map_index_alternate] at hends

theorem applyZeroValues_covers {sizes : List (Run Nat)} {spans : BoolSpanList} {last : Nat}
    (hsizes : Covers a 0 (last + 1) sizes) (hspans : spans.spanlist.getLast? = some last)
    (hcovers : Covers c 0 (last + 1) (alternate spans.startBit spans.spanlist)) :
    ∃ result, applyZeroValues sizes spans = some result ∧
      Covers (fun k => if c k then 0 else a k) 0 (last + 1) result := by
  have hindex := hsizes.getLast?_map_index (Nat.zero_le last)
  cases sizes with
  | nil => exact absurd hsizes (Nat.succ_ne_zero last).symm
  | cons first sizes =>
      have hfirst : (if spans.startBit then 0 else first.value) = if c 0 then 0 else a 0 := by
        rw [hcovers.alternate_start (Nat.succ_pos last), hsizes.value_start]
      have hresult := applyZeroLoop_covers hsizes hcovers rfl (Nat.le_refl _)
        (open_zero (Nat.succ_pos last) hfirst.symm)
      rw [List.getLast?_map] at hindex
      rcases Option.map_eq_some_iff.mp hindex with ⟨run, hrun, hlast⟩
      rw [applyZeroValues, hrun]
      simp only [List.head?_cons, hspans, hlast]
      exact ⟨_, if_neg (by simp), hresult⟩

/-! ## The texts -/

/-- A number as it is written. -/
def Numeral (n : Nat) (text : List Char) : Prop :=
  text ≠ [] ∧ (∀ c ∈ text, c.isDigit = true) ∧ Nat.ofDigitChars 10 text 0 = n

/-- Entries with a blank behind each. -/
def entriesText (entries : List (List Char)) : List Char := entries.flatMap (· ++ [' '])

def SizeEntry (span : Run Nat) (entry : List Char) : Prop :=
  ∃ value index, Numeral span.value value ∧ Numeral span.index index ∧ entry = value ++ ':' :: index

/-- The text of sizes, with the size and the last element of each span. -/
def SizesText (spans : List (Run Nat)) (text : List Char) : Prop :=
  ∃ entries, List.Forall₂ SizeEntry spans entries ∧ text = entriesText entries

/-- The text of hidden or filtered elements, with the bit of the first and the last element of each
span. -/
def BitsText (spans : BoolSpanList) (text : List Char) : Prop :=
  ∃ entries, List.Forall₂ Numeral spans.spanlist entries ∧
    text = (if spans.startBit then '1' else '0') :: ':' :: entriesText entries

section Texts

variable {n : Nat} {text entry : List Char} {entries : List (List Char)} {sizes : List (Run Nat)}

theorem Numeral.not_mem (h : Numeral n text) {c : Char} (hc : c.isDigit = false) : c ∉ text := by
  intro hmem
  rw [h.2.1 c hmem] at hc
  cases hc

theorem dropWhile_isSpace_of_isDigit {c : Char} (hc : c.isDigit = true) (rest : List Char) :
    (c :: rest).dropWhile Text.isSpace = c :: rest := by
  rw [List.dropWhile_cons_of_neg]
  simp [Text.isSpace_of_isDigit hc]

theorem parseInt_numeral (h : Numeral n text) : parseInt text = some n := by
  rcases h with ⟨hne, hdigits, hvalue⟩
  cases text with
  | nil => exact absurd rfl hne
  | cons c text =>
      have hstop : ∀ d ∈ ([] : List Char).head?, d.isDigit = false := by simp
      have htake := (Text.span_append hdigits hstop).1
      rw [List.append_nil] at htake
      rw [parseInt, dropWhile_isSpace_of_isDigit (hdigits c List.mem_cons_self), Text.leadingNat,
        htake, ← hvalue]

theorem splitOn_entriesText (h : ∀ entry ∈ entries, ' ' ∉ entry) :
    (entriesText entries).splitOn ' ' = entries ++ [[]] := by
  induction entries with
  | nil => rfl
  | cons entry entries ih =>
      have hrest := ih fun e he => h e (List.mem_cons_of_mem _ he)
      rw [entriesText, List.flatMap_cons, List.append_assoc, List.singleton_append,
        List.splitOn_append_cons_self_of_not_mem (h entry List.mem_cons_self)]
      exact congrArg (entry :: ·) hrest

theorem splitOn_pair {first second : List Char} (hfirst : ':' ∉ first) (hsecond : ':' ∉ second) :
    (first ++ ':' :: second).splitOn ':' = [first, second] := by
  rw [List.splitOn_append_cons_self_of_not_mem hfirst, List.splitOn_eq_singleton hsecond]

theorem SizeEntry.parseSpan_eq {span : Run Nat} (h : SizeEntry span entry) :
    parseSpan entry = some span ∧ ' ' ∉ entry := by
  rcases h with ⟨value, index, hvalue, hindex, rfl⟩
  constructor
  · rw [parseSpan, splitOn_pair (hvalue.not_mem (by decide)) (hindex.not_mem (by decide))]
    simp only [parseInt_numeral hvalue, parseInt_numeral hindex]
    rfl
  · simp [hvalue.not_mem (c := ' ') (by decide), hindex.not_mem (c := ' ') (by decide)]

theorem exists_of_forall₂ {α β : Type} {p : α → β → Prop} {xs : List α} {ys : List β} {y : β}
    (h : List.Forall₂ p xs ys) (hy : y ∈ ys) : ∃ x ∈ xs, p x y := by
  induction h with
  | nil => cases hy
  | cons hxy _ ih =>
      rcases List.mem_cons.mp hy with rfl | hy
      · exact ⟨_, List.mem_cons_self, hxy⟩
      · rcases ih hy with ⟨x, hx, hp⟩
        exact ⟨x, List.mem_cons_of_mem _ hx, hp⟩

/-- Reading the entries one after the other. -/
theorem mapM_of_forall₂ {α β : Type} {f : β → Option α} {p : α → β → Prop} {xs : List α}
    {ys : List β} (hf : ∀ x y, p x y → f y = some x) (h : List.Forall₂ p xs ys) :
    ys.mapM f = some xs := by
  induction h with
  | nil => rfl
  | cons hxy _ ih =>
      rw [List.mapM_cons, hf _ _ hxy, ih]
      rfl

theorem parseSpanList_eq (h : SizesText sizes text) (hne : sizes ≠ []) :
    parseSpanList text = some sizes := by
  rcases h with ⟨entries, hentries, rfl⟩
  have hblank : ∀ entry ∈ entries, ' ' ∉ entry := fun entry hmem => by
    rcases exists_of_forall₂ hentries hmem with ⟨span, -, hspan⟩
    exact hspan.parseSpan_eq.2
  have hlength := hentries.length_eq
  have hpos : 0 < sizes.length := List.length_pos_iff.mpr hne
  rw [parseSpanList, splitOn_entriesText hblank]
  simp only [List.length_append, List.length_singleton]
  rw [if_neg (by omega), List.dropLast_concat]
  exact mapM_of_forall₂ (fun _ _ hspan => hspan.parseSpan_eq.1) hentries

theorem not_mem_of_numerals {ends : List Nat} (h : List.Forall₂ Numeral ends entries) {c : Char}
    (hc : c.isDigit = false) : ∀ entry ∈ entries, c ∉ entry := by
  intro entry hmem
  rcases exists_of_forall₂ h hmem with ⟨n, -, hn⟩
  exact hn.not_mem hc

/-- The bit is in front of the first entry. -/
theorem splitOn_bits {bit : Char} {first : List Char} (hbit : bit ≠ ' ')
    (h : ∀ entry ∈ first :: entries, ' ' ∉ entry) :
    (bit :: ':' :: entriesText (first :: entries)).splitOn ' ' =
      (bit :: ':' :: first) :: (entries ++ [[]]) := by
  have hcons : bit :: ':' :: entriesText (first :: entries) =
      entriesText ((bit :: ':' :: first) :: entries) := rfl
  rw [hcons, splitOn_entriesText]
  · rfl
  · intro entry hmem
    rcases List.mem_cons.mp hmem with rfl | hmem
    · have hfirst := h first List.mem_cons_self
      simp [hbit.symm, hfirst]
    · exact h entry (List.mem_cons_of_mem _ hmem)

theorem splitOn_bit {bit : Char} {first : List Char} (hbit : bit ≠ ':') (hfirst : ':' ∉ first) :
    (bit :: ':' :: first).splitOn ':' = [[bit], first] := by
  have hno : ':' ∉ [bit] := by simpa using hbit.symm
  exact splitOn_pair hno hfirst

theorem parseBoolSpanList_eq {spans : BoolSpanList} (h : BitsText spans text)
    (hne : spans.spanlist ≠ []) : parseBoolSpanList text = some spans := by
  rcases spans with ⟨startBit, ends⟩
  rcases h with ⟨entries, hentries, rfl⟩
  cases hentries with
  | nil => exact absurd rfl hne
  | @cons last first ends entries hfirst hrest =>
      have hblank := not_mem_of_numerals (List.Forall₂.cons hfirst hrest) (c := ' ') (by decide)
      have hbit : parseInt [if startBit then '1' else '0'] = some (if startBit then 1 else 0) := by
        cases startBit <;> decide
      rw [parseBoolSpanList, splitOn_bits (by cases startBit <;> simp) hblank]
      simp only [List.length_cons, List.length_append, List.length_nil]
      rw [if_neg (by omega), List.headD_cons,
        splitOn_bit (by cases startBit <;> simp) (hfirst.not_mem (by decide)), List.tail_cons,
        List.dropLast_concat, mapM_of_forall₂ (fun _ _ hn => parseInt_numeral hn) hrest]
      simp only [hbit, parseInt_numeral hfirst]
      cases startBit <;> rfl

theorem entriesText_eq (hne : entries ≠ []) :
    entriesText entries = [' '].intercalate entries ++ [' '] := by
  induction entries with
  | nil => exact absurd rfl hne
  | cons entry entries ih =>
      cases entries with
      | nil => simp [entriesText]
      | cons next entries =>
          have hrest := ih (List.cons_ne_nil next entries)
          rw [entriesText, List.flatMap_cons, ← entriesText, hrest, List.intercalate_cons_cons]
          simp

/-- The text ends with a digit. -/
def EndsWithDigit (text : List Char) : Prop := ∃ body d, d.isDigit = true ∧ text = body ++ [d]

theorem Numeral.endsWithDigit (h : Numeral n text) : EndsWithDigit text :=
  ⟨text.dropLast, text.getLast h.1, h.2.1 _ (List.getLast_mem h.1),
    (List.dropLast_concat_getLast h.1).symm⟩

theorem EndsWithDigit.append (h : EndsWithDigit text) (front : List Char) :
    EndsWithDigit (front ++ text) := by
  rcases h with ⟨body, d, hd, rfl⟩
  exact ⟨front ++ body, d, hd, (List.append_assoc _ _ _).symm⟩

theorem endsWithDigit_intercalate (hne : entries ≠ [])
    (h : ∀ entry ∈ entries, EndsWithDigit entry) :
    EndsWithDigit ([' '].intercalate entries) := by
  induction entries with
  | nil => exact absurd rfl hne
  | cons entry entries ih =>
      cases entries with
      | nil => simpa using h entry
      | cons next entries =>
          have hrest := ih (List.cons_ne_nil next entries) fun e he =>
            h e (List.mem_cons_of_mem _ he)
          rw [List.intercalate_cons_cons]
          exact hrest.append _

theorem trim_append_blank {c : Char} (hc : Text.isSpace c = false) (h : EndsWithDigit (c :: text)) :
    trim (c :: text ++ [' ']) = c :: text := by
  rcases h with ⟨body, d, hd, heq⟩
  have hfront : (c :: text ++ [' ']).dropWhile Text.isSpace = c :: text ++ [' '] := by
    rw [List.cons_append, List.dropWhile_cons_of_neg (by simp [hc])]
  rw [trim, hfront, heq, List.reverse_append, List.reverse_append]
  have hblank : Text.isSpace ' ' = true := by decide
  simp only [List.reverse_singleton, List.singleton_append]
  rw [List.dropWhile_cons_of_pos hblank, dropWhile_isSpace_of_isDigit hd]
  simp

theorem getElem?_bind_parseInt {ends : List Nat} (h : List.Forall₂ Numeral ends entries) (i : Nat) :
    (entries[i]?).bind parseInt = ends[i]? := by
  induction h generalizing i with
  | nil => rfl
  | cons hn _ ih =>
      cases i with
      | zero => exact parseInt_numeral hn
      | succ i => simpa using ih i

theorem lastHidden_eq (n : Nat) (startBit : Bool) :
    ((n + 1 + 1) % 2 == 0 && !startBit || (n + 1 + 1) % 2 == 1 && startBit) =
      (startBit ^^ ((n + 1) % 2 == 1)) := by
  rcases Nat.mod_two_eq_zero_or_one n with hn | hn
  · rw [show (n + 1 + 1) % 2 = 0 by omega, show (n + 1) % 2 = 1 by omega]
    cases startBit <;> rfl
  · rw [show (n + 1 + 1) % 2 = 1 by omega, show (n + 1) % 2 = 0 by omega]
    cases startBit <;> rfl

/-- What the parity of the entries says of the last span. -/
theorem checkMaxIndex_eq {spans : BoolSpanList} (h : BitsText spans text)
    (hne : spans.spanlist ≠ []) :
    checkMaxIndex text =
      if spans.startBit ^^ ((spans.spanlist.length - 1) % 2 == 1) then
        if spans.spanlist.length = 1 then some 0 else spans.spanlist[spans.spanlist.length - 2]?
      else spans.spanlist[spans.spanlist.length - 1]? := by
  rcases spans with ⟨startBit, ends⟩
  rcases h with ⟨entries, hentries, rfl⟩
  cases hentries with
  | nil => exact absurd rfl hne
  | @cons last first ends entries hfirst hrest =>
      generalize hbit : (if startBit then '1' else '0' : Char) = bit
      have hdigit : bit.isDigit = true := by
        rw [← hbit]
        cases startBit <;> decide
      have hone : (some bit == some '1') = startBit := by
        rw [← hbit]
        cases startBit <;> decide
      have hnumerals := List.Forall₂.cons hfirst hrest
      have hblank := not_mem_of_numerals hnumerals (by decide : ' '.isDigit = false)
      have hcolon := not_mem_of_numerals hnumerals (by decide : ':'.isDigit = false)
      have hends : ∀ entry ∈ (bit :: ':' :: first) :: entries, EndsWithDigit entry := by
        intro entry hmem
        rcases List.mem_cons.mp hmem with rfl | hmem
        · exact hfirst.endsWithDigit.append [bit, ':']
        · rcases exists_of_forall₂ hrest hmem with ⟨n, -, hn⟩
          exact hn.endsWithDigit
      have hsep : ∀ entry ∈ (bit :: ':' :: first) :: entries, ' ' ∉ entry := by
        intro entry hmem
        rcases List.mem_cons.mp hmem with rfl | hmem
        · have hne : ' ' ≠ bit := by
            rintro rfl
            cases hdigit
          simp [hne, hblank first List.mem_cons_self]
        · exact hblank entry (List.mem_cons_of_mem _ hmem)
      have hinfo : trim (bit :: ':' :: entriesText (first :: entries)) =
          [' '].intercalate ((bit :: ':' :: first) :: entries) := by
        have htext : bit :: ':' :: entriesText (first :: entries) =
            entriesText ((bit :: ':' :: first) :: entries) := rfl
        have hdigits := endsWithDigit_intercalate (List.cons_ne_nil _ _) hends
        rw [htext, entriesText_eq (List.cons_ne_nil _ _)]
        rw [Text.intercalate_cons] at hdigits ⊢
        exact trim_append_blank (Text.isSpace_of_isDigit hdigit) hdigits
      have hhead : ([' '].intercalate ((bit :: ':' :: first) :: entries)).head? = some bit := by
        rw [Text.intercalate_cons]
        rfl
      have hfirstIndex : ((bit :: ':' :: first).splitOn ':')[1]?.bind parseInt = some last := by
        have hne : bit ≠ ':' := by
          rintro rfl
          cases hdigit
        rw [splitOn_bit hne (hcolon first List.mem_cons_self)]
        exact parseInt_numeral hfirst
      have hlength := hrest.length_eq
      have hindex := getElem?_bind_parseInt hrest
      rw [checkMaxIndex]
      simp only [hinfo, hhead, List.splitOn_intercalate ' ' hsep (List.cons_ne_nil _ _), hone,
        List.headD_cons, hfirstIndex, List.length_cons, hlength]
      cases entries with
      | nil =>
          cases startBit <;> simp_all
      | cons second entries =>
          simp only [List.length_cons]
          generalize entries.length = n
          rw [if_neg (by omega), show n + 1 + 1 - 1 = n + 1 from rfl, List.getElem?_cons_succ,
            List.getElem?_cons_succ, hindex n, lastHidden_eq n startBit]
          cases startBit ^^ ((n + 1) % 2 == 1) with
          | false => rfl
          | true =>
              cases n with
              | zero => rfl
              | succ n =>
                  have hlast := hindex n
                  simp [hlast]

end Texts

/-! ## The visible elements -/

/-- The last element that is not in a span with the bit, or zero. -/
def IsLastVisible (spans : BoolSpanList) (last index : Nat) : Prop :=
  (index ≤ last ∧ spans.has index = false ∧ ∀ k, index < k → k ≤ last → spans.has k = true) ∨
    (index = 0 ∧ ∀ k, k ≤ last → spans.has k = true)

theorem checkMaxIndex_isLastVisible {spans : BoolSpanList} {text : List Char} {last : Nat}
    (h : BitsText spans text) (hends : EndsAt last spans.spanlist) :
    ∃ index, checkMaxIndex text = some index ∧ IsLastVisible spans last index := by
  have hcovers := BoolSpanList.covers_has hends
  have hspan : ∀ {i e : Nat}, spans.spanlist[i]? = some e →
      (alternate spans.startBit spans.spanlist)[i]? = some ⟨e, spans.startBit ^^ (i % 2 == 1)⟩ := by
    intro i e he
    rw [getElem?_alternate, he]
    rfl
  have hlast := hends.2
  rw [List.getLast?_eq_getElem?] at hlast
  rw [checkMaxIndex_eq h hends.ne_nil]
  have hlastSpan := hcovers.getElem? (hspan hlast)
  cases hbit : spans.startBit ^^ ((spans.spanlist.length - 1) % 2 == 1) with
  | false =>
      rw [hbit] at hlastSpan
      refine ⟨last, hlast, .inl ⟨Nat.le_refl last, ?_, fun k hlt hle => by omega⟩⟩
      exact hlastSpan.2.2 last hlastSpan.1 (Nat.le_refl last)
  | true =>
      rw [hbit] at hlastSpan
      simp only [if_true]
      split
      case isTrue hone =>
        rw [hone] at hlastSpan
        exact ⟨0, rfl, .inr ⟨rfl, fun k hle => hlastSpan.2.2 k (Nat.zero_le k) hle⟩⟩
      case isFalse hmore =>
        have hlength := (List.getElem?_eq_some_iff.mp hlast).1
        rcases Nat.exists_eq_add_of_le' (by omega : 2 ≤ spans.spanlist.length) with ⟨m, hm⟩
        rw [hm, show m + 2 - 1 = m + 1 from rfl] at hlastSpan hbit
        rw [hm, show m + 2 - 2 = m from rfl]
        have hfront : spans.spanlist[m]? = some spans.spanlist[m] := List.getElem?_eq_getElem _
        have hfrontSpan := hcovers.getElem? (hspan hfront)
        have hfalse : (spans.startBit ^^ (m % 2 == 1)) = false := by
          rw [xor_odd_succ] at hbit
          simpa using hbit
        rw [hfalse] at hfrontSpan
        refine ⟨_, hfront, .inl ⟨Nat.le_of_lt_succ hfrontSpan.2.1, ?_, fun k hlt hle => ?_⟩⟩
        · exact hfrontSpan.2.2 _ hfrontSpan.1 (Nat.le_refl _)
        · refine hlastSpan.2.2 k ?_ hle
          rw [startOf_succ (hspan hfront)]
          exact hlt

/-- After an update the sizes are those of the text, or zero where an element is hidden or filtered,
and the text of the hidden elements gives the last one that is not. -/
theorem update_visible (dim : DimensionSpans) {sizes : List (Run Nat)}
    {hidden filtered : BoolSpanList} {last : Nat} {sizesText hiddenText filteredText : List Char}
    {groups : Option (List Char)} (hsizes : SizesText sizes sizesText)
    (hhidden : BitsText hidden hiddenText) (hfiltered : BitsText filtered filteredText)
    (hsizesEnd : EndsAt last (sizes.map Run.index)) (hhiddenEnd : EndsAt last hidden.spanlist)
    (hfilteredEnd : EndsAt last filtered.spanlist) (hgroups : groups.all loadOutlines = true) :
    ∃ visible, dim.update ⟨some sizesText, some hiddenText, some filteredText, groups⟩ =
        (true, ⟨sizes, hidden, filtered, some visible⟩) ∧
      Covers (fun i => if hidden.has i || filtered.has i then 0 else valueAt sizes i) 0 (last + 1)
        visible ∧
      ∃ index, checkMaxIndex hiddenText = some index ∧ IsLastVisible hidden last index := by
  have hsizesCovers : Covers (valueAt sizes) 0 (last + 1) sizes :=
    covers_of_ends hsizesEnd.1 hsizesEnd.2
  rcases union_covers hhiddenEnd hfilteredEnd with ⟨invisible, hunion, hlast, hinvisible⟩
  rcases applyZeroValues_covers hsizesCovers hlast hinvisible with ⟨visible, hvisible, hcovers⟩
  refine ⟨visible, ?_, hcovers, checkMaxIndex_isLastVisible hhidden hhiddenEnd⟩
  have hparsed := parseSpanList_eq hsizes fun hnil => hsizesEnd.ne_nil (by rw [hnil]; rfl)
  rw [DimensionSpans.update]
  simp [hparsed, parseBoolSpanList_eq hhidden hhiddenEnd.ne_nil,
    parseBoolSpanList_eq hfiltered hfilteredEnd.ne_nil, hgroups, DimensionSpans.updateVisible,
    hunion, hvisible]

/-- Four columns of two sizes, with the second and the third hidden and the last one filtered. -/
theorem update_visible_fourColumns :
    ∃ visible, (⟨[], ⟨false, []⟩, ⟨false, []⟩, none⟩ : DimensionSpans).update
        ⟨some "1280:1 500:3 ".toList, some "0:0 2 3 ".toList, some "0:2 3 ".toList, none⟩ =
        (true, ⟨[⟨1, 1280⟩, ⟨3, 500⟩], ⟨false, [0, 2, 3]⟩, ⟨false, [2, 3]⟩, some visible⟩) ∧
      Covers (fun i =>
        if BoolSpanList.has ⟨false, [0, 2, 3]⟩ i || BoolSpanList.has ⟨false, [2, 3]⟩ i then 0
        else valueAt [⟨1, 1280⟩, ⟨3, 500⟩] i) 0 4 visible ∧
      ∃ index, checkMaxIndex "0:0 2 3 ".toList = some index ∧
        IsLastVisible ⟨false, [0, 2, 3]⟩ 3 index := by
  have hnumeral : ∀ {n : Nat} {text : List Char}, text ≠ [] → text.all Char.isDigit = true →
      Nat.ofDigitChars 10 text 0 = n → Numeral n text := fun hne hdigits hvalue =>
    ⟨hne, fun c hc => List.all_eq_true.mp hdigits c hc, hvalue⟩
  refine update_visible _ ⟨["1280:1".toList, "500:3".toList], ?_, by decide⟩
    ⟨["0".toList, "2".toList, "3".toList], ?_, by decide⟩ ⟨["2".toList, "3".toList], ?_, by decide⟩
    ⟨by decide, rfl⟩ ⟨by decide, rfl⟩ ⟨by decide, rfl⟩ rfl
  · refine .cons ⟨"1280".toList, "1".toList, ?_, ?_, by decide⟩
      (.cons ⟨"500".toList, "3".toList, ?_, ?_, by decide⟩ .nil) <;>
    exact hnumeral (by decide) (by decide) (by decide)
  · refine .cons ?_ (.cons ?_ (.cons ?_ .nil)) <;>
    exact hnumeral (by decide) (by decide) (by decide)
  · refine .cons ?_ (.cons ?_ .nil) <;> exact hnumeral (by decide) (by decide) (by decide)

/-- The positions of a dimension are made from these sizes. -/
theorem sizes_of_covers (dim : SheetDimension) {v : Nat → Nat} {visible : List (Run Nat)}
    {last : Nat} (h : Covers v 0 (last + 1) visible) :
    (dim.updateVisible visible h.pairwise).elementCount = last + 1 ∧
      ∀ i, i ≤ last → (dim.updateVisible visible h.pairwise).sizes i = v i := by
  constructor
  · have hlast := h.getLast?_map_index (Nat.zero_le last)
    rw [List.getLast?_map] at hlast
    rcases Option.map_eq_some_iff.mp hlast with ⟨run, hrun, rfl⟩
    rw [SheetDimension.elementCount_updateVisible, startOf_length, hrun]
    rfl
  · intro i hi
    rw [SheetDimension.sizes_updateVisible]
    exact h.valueAt_eq (Nat.zero_le i) (Nat.lt_succ_of_le hi)

end SheetGeometry

end CoolOnline
