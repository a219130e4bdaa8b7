import CoolOnline.Browser.OutlineGroups

/-! # Updates of a sheet geometry

`SheetGeometry.update` and `SheetDimension.update` of `browser/src/layer/tile/SheetGeometry.ts`, with
all that they change. The lists of a message are loaded in place, columns in front of rows. The
numbers in the texts have no sign.
-/

namespace CoolOnline

open Run

namespace SheetGeometry

/-- An update returns whether it was accepted, or it throws. -/
inductive UpdateResult
  | returned (updateOK : Bool)
  | threw
deriving DecidableEq

theorem length_of_mapM {α β : Type} {f : α → Option β} {xs : List α} {ys : List β}
    (h : xs.mapM f = some ys) : ys.length = xs.length := by
  induction xs generalizing ys with
  | nil =>
      cases h
      rfl
  | cons x xs ih =>
      rw [List.mapM_cons] at h
      rcases Option.bind_eq_some_iff.mp h with ⟨y, -, hrest⟩
      rcases Option.bind_eq_some_iff.mp hrest with ⟨rest, hxs, hys⟩
      cases hys
      rw [List.length_cons, List.length_cons, ih hxs]

theorem parseSpanList_ne_nil {encoding : List Char} {sizes : List (Run Nat)}
    (h : parseSpanList encoding = some sizes) : sizes ≠ [] := by
  rw [parseSpanList] at h
  split at h
  case isTrue => cases h
  case isFalse hlength =>
    have heq := length_of_mapM h
    rw [List.length_dropLast] at heq
    intro hnil
    rw [hnil, List.length_nil] at heq
    omega

namespace DimensionSpans

variable {dim : DimensionSpans} {json : SheetDimensionCoreData}

/-- All lists of a message can be read. -/
def loadsOK (json : SheetDimensionCoreData) : Bool :=
  json.sizes.all (fun text => (parseSpanList text).isSome) &&
    json.hidden.all (fun text => (parseBoolSpanList text).isSome) &&
    json.filtered.all (fun text => (parseBoolSpanList text).isSome) &&
    json.groups.all loadOutlines

def regenerateVisibleSizes (json : SheetDimensionCoreData) : Bool :=
  json.sizes.isSome || json.hidden.isSome || json.filtered.isSome

/-- The lists with those of a message that can be read. -/
def load (dim : DimensionSpans) (json : SheetDimensionCoreData) : DimensionSpans :=
  { dim with
    sizes := (json.sizes.bind parseSpanList).getD dim.sizes
    hidden := (json.hidden.bind parseBoolSpanList).getD dim.hidden
    filtered := (json.filtered.bind parseBoolSpanList).getD dim.filtered }

theorem update_eq (dim : DimensionSpans) (json : SheetDimensionCoreData) :
    dim.update json = (loadsOK json, if loadsOK json && regenerateVisibleSizes json then
      (dim.load json).updateVisible else dim.load json) := by
  rcases json with ⟨sizes, hidden, filtered, groups⟩
  cases sizes <;> cases hidden <;> cases filtered <;> rfl

theorem sizes_ne_nil (h : dim.updateVisible.visibleSizes.isSome) : dim.sizes ≠ [] := by
  intro hnil
  rw [updateVisible] at h
  cases hunion : dim.hidden.union dim.filtered with
  | none =>
      rw [hunion] at h
      cases h
  | some other =>
      rw [hunion, hnil] at h
      cases h

theorem load_sizes_ne_nil (h : dim.sizes ≠ []) : (dim.load json).sizes ≠ [] := by
  rw [load]
  cases hparsed : json.sizes.bind parseSpanList with
  | none => exact h
  | some sizes =>
      rcases Option.bind_eq_some_iff.mp hparsed with ⟨text, -, hparsed⟩
      exact parseSpanList_ne_nil hparsed

theorem update_loaded (hloaded : dim.visibleSizes.isSome → dim.sizes ≠ [])
    (h : (dim.update json).2.visibleSizes.isSome) : (dim.update json).2.sizes ≠ [] := by
  rw [update_eq] at h ⊢
  simp only at h ⊢
  split at h
  case isTrue hok =>
    rw [if_pos hok]
    exact sizes_ne_nil h
  case isFalse hok =>
    rw [if_neg hok]
    exact load_sizes_ne_nil (hloaded h)

end DimensionSpans

open DimensionSpans (loadsOK regenerateVisibleSizes update_loaded)

/-- The lists and the limit of a `SheetDimension`. There are visible sizes only after sizes have been
loaded. -/
structure DimensionState where
  spans : DimensionSpans
  outlines : List (List OutlineEntry)
  maxIndex : Option Nat
  loaded : spans.visibleSizes.isSome → spans.sizes ≠ []

namespace DimensionState

/-- The constructor of `SheetDimension`. -/
def new : DimensionState where
  spans := ⟨[], ⟨false, []⟩, ⟨false, []⟩, none⟩
  outlines := []
  maxIndex := none
  loaded h := by cases h

/-- The positions of undefined visible sizes cannot be updated. -/
def update (dim : DimensionState) (json : SheetDimensionCoreData) : UpdateResult × DimensionState :=
  let loadsOK := (dim.spans.update json).1
  let next : DimensionState :=
    { dim with
      spans := (dim.spans.update json).2
      outlines := (json.groups.bind DimensionOutlines.load).getD dim.outlines
      loaded := update_loaded dim.loaded }
  if loadsOK && regenerateVisibleSizes json && next.spans.visibleSizes.isNone then (.threw, next)
  else (.returned loadsOK, next)

def setMaxIndex (dim : DimensionState) (maxIndex : Option Nat) : DimensionState :=
  { dim with maxIndex := maxIndex }

/-- A dimension that has no data in a message is left alone. -/
def updateIfPresent (dim : DimensionState) :
    Option SheetDimensionCoreData → UpdateResult × DimensionState
  | none => (.returned true, dim)
  | some json => dim.update json

end DimensionState

structure SheetGeometryCoreData where
  commandName : Option (List Char)
  maxtiledcolumn : Option (List Char)
  maxtiledrow : Option (List Char)
  columns : Option SheetDimensionCoreData
  rows : Option SheetDimensionCoreData

namespace SheetGeometryCoreData

/-- `/^\d+$/` -/
def readable (text : Option (List Char)) : Bool :=
  text.any fun text => text ≠ [] && text.all Char.isDigit

def unoCommand : List Char := ".uno:SheetGeometryData".toList

def expectedFields (dimData : SheetDimensionCoreData) : List (Option (List Char)) :=
  [dimData.sizes, dimData.hidden, dimData.filtered]

/-- `_testValidity`. In a complete message no text is missing or empty. -/
def testValidity (json : SheetGeometryCoreData) (checkCompleteness : Bool) : Bool :=
  json.commandName == some unoCommand && readable json.maxtiledcolumn &&
    readable json.maxtiledrow &&
    (!checkCompleteness || json.rows.any fun rows => json.columns.any fun columns =>
      (expectedFields rows ++ expectedFields columns).all fun text => text.any (· ≠ []))

end SheetGeometryCoreData

open SheetGeometryCoreData

/-- The fields of a `SheetGeometry`. -/
structure GeometryState where
  part : Int
  columns : DimensionState
  rows : DimensionState
  maxVisibleColumnIndex : Option Nat
  maxVisibleRowIndex : Option Nat

namespace GeometryState

/-- The last visible index that a message gives for a dimension. -/
def maxVisibleIndex (old : Option Nat) (maxtiled : Option (List Char)) :
    Option SheetDimensionCoreData → Option Nat
  | none => old
  | some dimData =>
      match dimData.hidden with
      | some (c :: rest) => checkMaxIndex (c :: rest)
      | _ => maxtiled.bind parseInt

def update (geometry : GeometryState) (json : SheetGeometryCoreData) (checkCompleteness : Bool)
    (part : Int) : UpdateResult × GeometryState :=
  if !json.testValidity checkCompleteness then (.returned false, geometry)
  else
    match geometry.columns.updateIfPresent json.columns with
    | (.threw, columns) => (.threw, { geometry with columns := columns })
    | (.returned columnsOK, columns) =>
        let maxVisibleColumnIndex :=
          maxVisibleIndex geometry.maxVisibleColumnIndex json.maxtiledcolumn json.columns
        match geometry.rows.updateIfPresent json.rows with
        | (.threw, rows) =>
            (.threw, { geometry with
              columns := columns
              rows := rows
              maxVisibleColumnIndex := maxVisibleColumnIndex })
        | (.returned rowsOK, rows) =>
            let updateOK := columnsOK && rowsOK
            (.returned updateOK, {
              part := if updateOK then part else geometry.part
              columns := columns.setMaxIndex (json.maxtiledcolumn.bind parseInt)
              rows := rows.setMaxIndex (json.maxtiledrow.bind parseInt)
              maxVisibleColumnIndex := maxVisibleColumnIndex
              maxVisibleRowIndex :=
                maxVisibleIndex geometry.maxVisibleRowIndex json.maxtiledrow json.rows })

end GeometryState

/-! ## What an update does to a dimension -/

namespace DimensionState

variable {dim : DimensionState} {data : SheetDimensionCoreData}
  {json : Option SheetDimensionCoreData}

/-- Every lookup begins with the visible sizes. -/
def LookupsThrow (dim : DimensionState) : Prop := dim.spans.visibleSizes = none

def Accepted (json : Option SheetDimensionCoreData) : Prop := ∀ data ∈ json, loadsOK data = true

/-- Where lists are merged they cover the same range, those of the message and those that the
dimension keeps. -/
def Merges (dim : DimensionState) (json : Option SheetDimensionCoreData) : Prop :=
  ∀ data ∈ json, loadsOK data = true → regenerateVisibleSizes data = true →
    (dim.spans.load data).updateVisible.visibleSizes.isSome

/-- What can be read of a message is what the dimension has, and merging it would give the visible
sizes that there are. -/
structure BringsNothing (dim : DimensionState) (data : SheetDimensionCoreData) : Prop where
  sizes : ∀ sizes, data.sizes.bind parseSpanList = some sizes → sizes = dim.spans.sizes
  hidden : ∀ hidden, data.hidden.bind parseBoolSpanList = some hidden → hidden = dim.spans.hidden
  filtered : ∀ filtered, data.filtered.bind parseBoolSpanList = some filtered →
    filtered = dim.spans.filtered
  outlines : ∀ outlines, data.groups.bind DimensionOutlines.load = some outlines →
    outlines = dim.outlines
  visibleSizes : loadsOK data = true → regenerateVisibleSizes data = true →
    dim.spans.updateVisible.visibleSizes = dim.spans.visibleSizes

theorem getD_eq_iff {α : Type} {x : Option α} {a : α} :
    x.getD a = a ↔ ∀ b, x = some b → b = a := by
  cases x with
  | none => simp
  | some b => simp

theorem load_eq_iff {spans : DimensionSpans} : spans.load data = spans ↔
    (∀ sizes, data.sizes.bind parseSpanList = some sizes → sizes = spans.sizes) ∧
      (∀ hidden, data.hidden.bind parseBoolSpanList = some hidden → hidden = spans.hidden) ∧
      ∀ filtered, data.filtered.bind parseBoolSpanList = some filtered →
        filtered = spans.filtered := by
  rcases spans with ⟨sizes, hidden, filtered, visibleSizes⟩
  simp only [DimensionSpans.load, DimensionSpans.mk.injEq, getD_eq_iff, and_true]

theorem updateVisible_eq {spans : DimensionSpans}
    (h : spans.updateVisible.visibleSizes = spans.visibleSizes) : spans.updateVisible = spans := by
  rcases spans with ⟨sizes, hidden, filtered, visibleSizes⟩
  exact congrArg (DimensionSpans.mk sizes hidden filtered) h

theorem ext_iff' {other : DimensionState} : dim = other ↔
    dim.spans = other.spans ∧ dim.outlines = other.outlines ∧ dim.maxIndex = other.maxIndex := by
  rcases dim with ⟨spans, outlines, maxIndex, loaded⟩
  rcases other with ⟨spans', outlines', maxIndex', loaded'⟩
  simp

theorem update_snd (dim : DimensionState) (data : SheetDimensionCoreData) :
    (dim.update data).2.spans = (dim.spans.update data).2 ∧
      (dim.update data).2.outlines =
        (data.groups.bind DimensionOutlines.load).getD dim.outlines ∧
      (dim.update data).2.maxIndex = dim.maxIndex := by
  rw [update]
  simp only
  split
  · exact ⟨rfl, rfl, rfl⟩
  · exact ⟨rfl, rfl, rfl⟩

/-- An update leaves a dimension as it is when the message brings nothing. -/
theorem update_snd_eq_iff : (dim.update data).2 = dim ↔ dim.BringsNothing data := by
  have hafter := dim.update_snd data
  rw [ext_iff', hafter.1, hafter.2.1, hafter.2.2, getD_eq_iff, DimensionSpans.update_eq]
  constructor
  · intro h
    rcases h with ⟨hspans, houtlines, -⟩
    have hload : dim.spans.load data = dim.spans := by
      have hkept : ∀ {after : DimensionSpans}, after = dim.spans →
          after.sizes = (dim.spans.load data).sizes → after.hidden = (dim.spans.load data).hidden →
            after.filtered = (dim.spans.load data).filtered → dim.spans.load data = dim.spans := by
        rintro after rfl hsizes hhidden hfiltered
        simp only [DimensionSpans.load] at hsizes hhidden hfiltered ⊢
        rw [← hsizes, ← hhidden, ← hfiltered]
      simp only at hspans
      split at hspans
      · exact hkept hspans rfl rfl rfl
      · exact hspans
    have hlists := load_eq_iff.mp hload
    refine ⟨hlists.1, hlists.2.1, hlists.2.2, houtlines, fun hok hregenerate => ?_⟩
    simp only [hok, hregenerate, Bool.and_self, if_true, hload] at hspans
    rw [hspans]
  · intro h
    have hload := load_eq_iff.mpr ⟨h.sizes, h.hidden, h.filtered⟩
    refine ⟨?_, h.outlines, rfl⟩
    simp only [hload]
    split
    case isTrue hok =>
      rw [Bool.and_eq_true] at hok
      exact updateVisible_eq (h.visibleSizes hok.1 hok.2)
    case isFalse => rfl

theorem merges_some : dim.Merges (some data) ↔ (loadsOK data = true →
    regenerateVisibleSizes data = true →
      (dim.spans.load data).updateVisible.visibleSizes.isSome) := by
  simp [Merges]

theorem update_of_not_merges (h : ¬ dim.Merges (some data)) :
    (dim.update data).1 = .threw ∧ (dim.update data).2.LookupsThrow := by
  simp only [merges_some, not_forall] at h
  rcases h with ⟨hok, hregenerate, hnone⟩
  rw [Bool.not_eq_true, Option.isSome_eq_false_iff, Option.isNone_iff_eq_none] at hnone
  rw [update]
  simp only [hnone, DimensionSpans.update_eq, hok, hregenerate, Option.isNone_none,
    Bool.and_self, if_true, true_and]
  exact hnone

theorem update_of_merges (h : dim.Merges (some data)) :
    (dim.update data).1 = .returned (loadsOK data) ∧
      (¬ dim.LookupsThrow → ¬ (dim.update data).2.LookupsThrow) := by
  rw [merges_some] at h
  rw [update]
  simp only [DimensionSpans.update_eq]
  by_cases hregenerate : (loadsOK data && regenerateVisibleSizes data) = true
  · rw [Bool.and_eq_true] at hregenerate
    have hsome := h hregenerate.1 hregenerate.2
    have hnone : (dim.spans.load data).updateVisible.visibleSizes.isNone = false := by
      simpa using hsome
    simp only [hregenerate.1, hregenerate.2, Bool.and_self, if_true, hnone, Bool.and_false,
      Bool.false_eq_true, if_false, true_and]
    intro _ hthrow
    have hnext : (dim.spans.load data).updateVisible.visibleSizes = none := hthrow
    rw [hnext] at hsome
    cases hsome
  · rw [Bool.not_eq_true] at hregenerate
    simp only [hregenerate, Bool.false_and, Bool.false_eq_true, if_false, true_and]
    exact id

/-! With no data there is nothing to merge and nothing to change. -/

/-- What a message says for a dimension leaves it as it is. -/
def Keeps (dim : DimensionState) (json : Option SheetDimensionCoreData) : Prop :=
  ∀ data ∈ json, dim.BringsNothing data

theorem updateIfPresent_of_not_merges (h : ¬ dim.Merges json) :
    (dim.updateIfPresent json).1 = .threw ∧ (dim.updateIfPresent json).2.LookupsThrow := by
  cases json with
  | none => exact absurd (by simp [Merges]) h
  | some data => exact update_of_not_merges h

theorem updateIfPresent_of_merges (h : dim.Merges json) :
    (∃ updateOK, (dim.updateIfPresent json).1 = .returned updateOK ∧
        (updateOK = true ↔ Accepted json)) ∧
      (¬ dim.LookupsThrow → ¬ (dim.updateIfPresent json).2.LookupsThrow) := by
  cases json with
  | none => exact ⟨⟨true, rfl, by simp [Accepted]⟩, id⟩
  | some data =>
      have hupdate := update_of_merges h
      exact ⟨⟨loadsOK data, hupdate.1, by simp [Accepted]⟩, hupdate.2⟩

theorem updateIfPresent_snd_eq_iff : (dim.updateIfPresent json).2 = dim ↔ dim.Keeps json := by
  cases json with
  | none => simp [updateIfPresent, Keeps]
  | some data => simpa [updateIfPresent, Keeps] using update_snd_eq_iff

theorem setMaxIndex_eq_iff {maxIndex : Option Nat} :
    (dim.updateIfPresent json).2.setMaxIndex maxIndex = dim ↔
      dim.Keeps json ∧ maxIndex = dim.maxIndex := by
  have hmax : (dim.updateIfPresent json).2.maxIndex = dim.maxIndex := by
    cases json with
    | none => rfl
    | some data => exact (dim.update_snd data).2.2
  rw [← updateIfPresent_snd_eq_iff, ext_iff', ext_iff', hmax]
  simp [setMaxIndex, and_assoc]

theorem lookupsThrow_setMaxIndex {maxIndex : Option Nat} :
    (dim.setMaxIndex maxIndex).LookupsThrow ↔ dim.LookupsThrow := Iff.rfl

end DimensionState

/-! ## What an update does to the geometry -/

namespace GeometryState

open DimensionState

variable {geometry : GeometryState} {json : SheetGeometryCoreData} {checkCompleteness : Bool}
  {part : Int}

/-- An update that is rejected changes neither the dimensions nor the part, and no update makes the
lookups throw. -/
structure UpdateSafe (geometry : GeometryState) (json : SheetGeometryCoreData)
    (checkCompleteness : Bool) (part : Int) : Prop where
  rejected : (geometry.update json checkCompleteness part).1 = .returned false →
    (geometry.update json checkCompleteness part).2.columns = geometry.columns ∧
      (geometry.update json checkCompleteness part).2.rows = geometry.rows ∧
      (geometry.update json checkCompleteness part).2.part = geometry.part
  columns : ¬ geometry.columns.LookupsThrow →
    ¬ (geometry.update json checkCompleteness part).2.columns.LookupsThrow
  rows : ¬ geometry.rows.LookupsThrow →
    ¬ (geometry.update json checkCompleteness part).2.rows.LookupsThrow

theorem update_of_invalid (geometry : GeometryState) (part : Int)
    (h : json.testValidity checkCompleteness = false) :
    geometry.update json checkCompleteness part = (.returned false, geometry) := by
  rw [update, h]
  rfl

theorem update_of_columns_threw (part : Int)
    (hvalid : json.testValidity checkCompleteness = true)
    (h : (geometry.columns.updateIfPresent json.columns).1 = .threw) :
    geometry.update json checkCompleteness part = (.threw,
      { geometry with columns := (geometry.columns.updateIfPresent json.columns).2 }) := by
  rw [update, hvalid]
  generalize geometry.columns.updateIfPresent json.columns = result at h
  rcases result with ⟨result, columns⟩
  cases h
  rfl

theorem update_of_rows_threw (part : Int) (hvalid : json.testValidity checkCompleteness = true)
    {columnsOK : Bool}
    (hcolumns : (geometry.columns.updateIfPresent json.columns).1 = .returned columnsOK)
    (h : (geometry.rows.updateIfPresent json.rows).1 = .threw) :
    (geometry.update json checkCompleteness part).1 = .threw ∧
      (geometry.update json checkCompleteness part).2.columns =
        (geometry.columns.updateIfPresent json.columns).2 ∧
      (geometry.update json checkCompleteness part).2.rows =
        (geometry.rows.updateIfPresent json.rows).2 := by
  rw [update, hvalid]
  generalize geometry.columns.updateIfPresent json.columns = result at hcolumns
  generalize geometry.rows.updateIfPresent json.rows = rowsResult at h
  rcases result with ⟨result, columns⟩
  rcases rowsResult with ⟨rowsResult, rows⟩
  cases hcolumns
  cases h
  exact ⟨rfl, rfl, rfl⟩

theorem update_of_returned (part : Int) (hvalid : json.testValidity checkCompleteness = true)
    {columnsOK rowsOK : Bool}
    (hcolumns : (geometry.columns.updateIfPresent json.columns).1 = .returned columnsOK)
    (hrows : (geometry.rows.updateIfPresent json.rows).1 = .returned rowsOK) :
    (geometry.update json checkCompleteness part).1 = .returned (columnsOK && rowsOK) ∧
      (geometry.update json checkCompleteness part).2.columns =
        (geometry.columns.updateIfPresent json.columns).2.setMaxIndex
          (json.maxtiledcolumn.bind parseInt) ∧
      (geometry.update json checkCompleteness part).2.rows =
        (geometry.rows.updateIfPresent json.rows).2.setMaxIndex (json.maxtiledrow.bind parseInt) ∧
      (geometry.update json checkCompleteness part).2.part =
        if columnsOK && rowsOK then part else geometry.part := by
  rw [update, hvalid]
  generalize geometry.columns.updateIfPresent json.columns = result at hcolumns
  generalize geometry.rows.updateIfPresent json.rows = rowsResult at hrows
  rcases result with ⟨result, columns⟩
  rcases rowsResult with ⟨rowsResult, rows⟩
  cases hcolumns
  cases hrows
  exact ⟨rfl, rfl, rfl, rfl⟩

/-- A geometry of ten columns and ten rows. -/
def tenByTen : GeometryState :=
  let dim : DimensionState :=
    ⟨⟨[⟨9, 100⟩], ⟨false, [9]⟩, ⟨false, [9]⟩, some [⟨9, 100⟩]⟩, [], some 9, by simp⟩
  ⟨0, dim, dim, some 9, some 9⟩

/-- New sizes of the columns, with a text for the hidden ones that cannot be read. -/
def unreadableHidden : SheetGeometryCoreData where
  commandName := some unoCommand
  maxtiledcolumn := some ['9']
  maxtiledrow := some ['9']
  columns := some ⟨some "200:9 ".toList, some "9 ".toList, none, none⟩
  rows := none

end GeometryState

end SheetGeometry

end CoolOnline
