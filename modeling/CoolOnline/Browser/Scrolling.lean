import CoolOnline.Library.History
import Mathlib.Algebra.Order.Field.Rat
import Mathlib.Data.Rat.Floor
import Mathlib.Tactic.FieldSimp
import Mathlib.Tactic.Linarith

/-! # Scrolling

`ScrollProperties` and the scroll functions of `browser/src/app/ViewLayout.ts`, with exact numbers.
What the source keeps of both directions under two names (`startX` and `startY`) is a scroll bar
here.
-/

namespace CoolOnline.ViewLayout

/-- The scroll properties of one direction. -/
structure ScrollBar where
  offset : ℚ
  scrollLength : ℚ
  scrollSize : ℚ
  minimumScrollSize : ℚ
  scrollRatio : ℚ
  start : ℚ
  scrollStep : ℚ
deriving DecidableEq

structure ScrollProperties where
  horizontal : ScrollBar
  vertical : ScrollBar
  /-- The pending move event. -/
  moveBy : Option (ℚ × ℚ)
deriving DecidableEq

/-! ## Refreshing -/

/-- `Math.round`. -/
def round (x : ℚ) : ℚ := ⌊x + 1 / 2⌋

/-- What the properties are refreshed from: the section of the document, its split panes, the
scrollable area and the top left of what is viewed. -/
structure DocumentLayout where
  spreadsheet : Bool
  splitPos : Option (ℚ × ℚ)
  dpiScale : ℚ
  anchorSize : ℚ × ℚ
  anchorTopLeft : ℚ × ℚ
  viewSize : ℚ × ℚ
  viewed : ℚ × ℚ

/-- To prevent overlapping of the scroll bars. -/
def horizontalScrollRightOffset : ℚ := 20

namespace DocumentLayout

variable (layout : DocumentLayout)

/-- The split position in one direction, in whole pixels; only spreadsheets have one. -/
def split (direction : ℚ × ℚ → ℚ) : ℚ :=
  match layout.spreadsheet, layout.splitPos with
  | true, some pos => round (direction pos * layout.dpiScale)
  | _, _ => 0

end DocumentLayout

namespace ScrollBar

variable (bar : ScrollBar)

def calculateScrollLength (size topLeft split rightOffset : ℚ) : ScrollBar :=
  { bar with offset := topLeft + split, scrollLength := size - split - rightOffset }

def calculateTheScrollSize (viewSize : ℚ) : ScrollBar :=
  let scrollSize := round (bar.scrollLength ^ 2 / viewSize)
  { bar with
    scrollSize := if scrollSize < bar.minimumScrollSize then bar.minimumScrollSize else scrollSize }

/-- 1px scrolling is as many pixels of the document as the ratio says. -/
def placeStart (size viewSize viewed : ℚ) : ScrollBar :=
  let ratio := (viewSize - size) / (bar.scrollLength - bar.scrollSize)
  { bar with scrollRatio := ratio, start := viewed / ratio + bar.offset, scrollStep := size / 2 }

/-- `refreshScrollProperties` in one direction. -/
def refresh (layout : DocumentLayout) (direction : ℚ × ℚ → ℚ) (rightOffset : ℚ) : ScrollBar :=
  ((bar.calculateScrollLength (direction layout.anchorSize) (direction layout.anchorTopLeft)
    (layout.split direction) rightOffset).calculateTheScrollSize
      (direction layout.viewSize)).placeStart (direction layout.anchorSize)
        (direction layout.viewSize) (direction layout.viewed)

end ScrollBar

def ScrollProperties.refreshScrollProperties (s : ScrollProperties) (layout : DocumentLayout) :
    ScrollProperties :=
  { s with
    horizontal := s.horizontal.refresh layout Prod.fst horizontalScrollRightOffset
    vertical := s.vertical.refresh layout Prod.snd 0 }

/-! ## Scrolling -/

namespace ScrollBar

variable (bar : ScrollBar)

/-- What is left of a move `p`, which is `ps` for the scroll bar, when `moved` is pending. -/
def limit (moved ps p : ℚ) : ℚ :=
  -- the pending offset as a scroll bar position diff
  let control := moved / bar.scrollRatio
  let endPosition := bar.start - bar.offset + control + ps
  if p > 0 then
    let p :=
      if endPosition + bar.scrollSize > bar.scrollLength then
        (bar.scrollLength - bar.scrollSize - bar.start + bar.offset - control) * bar.scrollRatio
      else p
    if p < 0 then 0 else p
  else
    let p :=
      if endPosition < 0 then (bar.start - bar.offset + control) * -1 * bar.scrollRatio else p
    if p > 0 then 0 else p

/-- The position of the scroll bar when the pending move is done. -/
def position (moved : ℚ) : ℚ := bar.start - bar.offset + moved / bar.scrollRatio

/-- The largest position. -/
def room : ℚ := bar.scrollLength - bar.scrollSize

/-- A scroll bar with room to move, in its range. -/
structure InRange (moved : ℚ) : Prop where
  ratio : 0 < bar.scrollRatio
  size : bar.scrollSize < bar.scrollLength
  lower : 0 ≤ bar.position moved
  upper : bar.position moved ≤ bar.room

end ScrollBar

namespace ScrollProperties

variable (s : ScrollProperties)

/-- The pending offsets; zero without a pending move. -/
def pending : ℚ × ℚ := s.moveBy.getD (0, 0)

def scrollHorizontal (rtl : Bool) (pX : ℚ) (ignoreScrollbarLength : Bool) : ScrollProperties :=
  let psX := pX / s.horizontal.scrollRatio
  let pX := if rtl then -pX else pX
  let pX := if ignoreScrollbarLength then pX else s.horizontal.limit s.pending.1 psX pX
  match s.moveBy with
  | some moveBy => { s with moveBy := some (moveBy.1 + pX, moveBy.2) }
  | none => { s with moveBy := some (pX, 0) }

def scrollVertical (pY : ℚ) : ScrollProperties :=
  let psY := pY / s.vertical.scrollRatio
  let pY := s.vertical.limit s.pending.2 psY pY
  match s.moveBy with
  | some moveBy => { s with moveBy := some (moveBy.1, moveBy.2 + pY) }
  | none => { s with moveBy := some (0, pY) }

/-- Both pending positions are in range. -/
structure InRange : Prop where
  horizontal : s.horizontal.InRange s.pending.1
  vertical : s.vertical.InRange s.pending.2

end ScrollProperties

/-- The calls; a horizontal one reads the direction of the text. -/
inductive ScrollCall
  | vertical (pY : ℚ)
  | horizontal (rtl : Bool) (pX : ℚ)

namespace ScrollCall

/-- The move of a call in full, mirrored where the text runs from right to left. -/
def move : ScrollCall → ℚ × ℚ
  | vertical pY => (0, pY)
  | horizontal rtl pX => (if rtl then -pX else pX, 0)

def apply (s : ScrollProperties) : ScrollCall → ScrollProperties
  | vertical pY => s.scrollVertical pY
  | horizontal rtl pX => s.scrollHorizontal rtl pX false

def step (s : ScrollProperties) (call : ScrollCall) : Option ScrollProperties := some (call.apply s)

/-- A call keeps the pending positions in range, and a move that fits is made in full. -/
structure Keeps (s : ScrollProperties) (call : ScrollCall) (s' : ScrollProperties) : Prop where
  inRange : s'.InRange
  full (hhorizontal : s.horizontal.InRange (s.pending.1 + call.move.1))
    (hvertical : s.vertical.InRange (s.pending.2 + call.move.2)) :
    s' = { s with moveBy := some (s.pending + call.move) }

/-- A mirrored move fits. -/
def Fits (s : ScrollProperties) (call : ScrollCall) (_ : ScrollProperties) : Prop :=
  match call with
  | vertical _ => True
  | horizontal rtl pX =>
      rtl = true → 0 ≤ s.horizontal.position (s.pending.1 - pX) ∧
        s.horizontal.position (s.pending.1 - pX) ≤ s.horizontal.room

end ScrollCall

namespace ScrollBar

variable {bar : ScrollBar} {moved p : ℚ}

/-! ## One direction -/

theorem position_add (moved p : ℚ) :
    bar.position (moved + p) = bar.position moved + p / bar.scrollRatio := by
  rw [position, position, add_div, ← add_assoc]

/-- A move up to a position, as a move of the document. -/
theorem position_add_mul (h : bar.InRange moved) (x : ℚ) :
    bar.position (moved + (x - bar.position moved) * bar.scrollRatio) = x := by
  rw [position_add, mul_div_cancel_right₀ _ h.ratio.ne', add_sub_cancel]

theorem room_nonneg (h : bar.InRange moved) : 0 ≤ bar.room := sub_nonneg.mpr h.size.le

/-- The limits in terms of positions. -/
theorem limit_of_pos (ps : ℚ) (hp : 0 < p) (h : bar.InRange moved) :
    bar.limit moved ps p =
      if bar.room < bar.position moved + ps then (bar.room - bar.position moved) * bar.scrollRatio
      else p := by
  have hend : bar.start - bar.offset + moved / bar.scrollRatio + ps + bar.scrollSize >
      bar.scrollLength ↔ bar.room < bar.position moved + ps := by
    rw [room, position]
    constructor <;> intro hlt <;> linarith
  have hleft : bar.scrollLength - bar.scrollSize - bar.start + bar.offset -
      moved / bar.scrollRatio = bar.room - bar.position moved := by
    rw [room, position]
    ring
  simp only [limit, if_pos hp, hend, hleft]
  refine if_neg (not_lt.mpr ?_)
  split
  case isTrue => exact mul_nonneg (sub_nonneg.mpr h.upper) h.ratio.le
  case isFalse => exact hp.le

theorem limit_of_nonpos (ps : ℚ) (hp : p ≤ 0) (h : bar.InRange moved) :
    bar.limit moved ps p =
      if bar.position moved + ps < 0 then (0 - bar.position moved) * bar.scrollRatio else p := by
  have hback : (bar.start - bar.offset + moved / bar.scrollRatio) * -1 * bar.scrollRatio =
      (0 - bar.position moved) * bar.scrollRatio := by
    rw [position]
    ring
  simp only [limit, if_neg (not_lt.mpr hp), hback]
  refine if_neg (not_lt.mpr ?_)
  split
  case isTrue => exact mul_nonpos_of_nonpos_of_nonneg (by linarith [h.lower]) h.ratio.le
  case isFalse => exact hp

/-- The scroll bar ends where the move ends, or at the end of the range. -/
theorem position_limit (h : bar.InRange moved) (p : ℚ) :
    bar.position (moved + bar.limit moved (p / bar.scrollRatio) p) =
      max 0 (min bar.room (bar.position (moved + p))) := by
  have hroom := room_nonneg h
  rw [position_add moved p]
  cases lt_or_ge 0 p with
  | inl hp =>
      have hps : 0 < p / bar.scrollRatio := div_pos hp h.ratio
      have hlower := h.lower
      rw [limit_of_pos _ hp h]
      split
      case isTrue hover => rw [position_add_mul h, min_eq_left hover.le, max_eq_right hroom]
      case isFalse hfits =>
        rw [position_add, min_eq_right (not_lt.mp hfits), max_eq_right (by linarith)]
  | inr hp =>
      have hps : p / bar.scrollRatio ≤ 0 := div_nonpos_of_nonpos_of_nonneg hp h.ratio.le
      have hupper := h.upper
      rw [limit_of_nonpos _ hp h, min_eq_right (by linarith)]
      split
      case isTrue hunder => rw [position_add_mul h, max_eq_left hunder.le]
      case isFalse hfits => rw [position_add, max_eq_right (not_lt.mp hfits)]

/-- What fits is not cut. -/
theorem limit_eq_self (h : bar.InRange moved) (hmove : bar.InRange (moved + p)) :
    bar.limit moved (p / bar.scrollRatio) p = p := by
  have hlower := hmove.lower
  have hupper := hmove.upper
  rw [position_add] at hlower hupper
  cases lt_or_ge 0 p with
  | inl hp => rw [limit_of_pos _ hp h, if_neg (not_lt.mpr hupper)]
  | inr hp => rw [limit_of_nonpos _ hp h, if_neg (not_lt.mpr hlower)]

/-- A mirrored move is never cut: the scroll bar is looked at on the other side. -/
theorem limit_mirrored (h : bar.InRange moved) (p : ℚ) :
    bar.limit moved (p / bar.scrollRatio) (-p) = -p := by
  cases lt_or_ge 0 (-p) with
  | inl hp =>
      have hps := div_nonpos_of_nonpos_of_nonneg (neg_pos.mp hp).le h.ratio.le
      have hupper := h.upper
      rw [limit_of_pos _ hp h, if_neg (by linarith)]
  | inr hp =>
      have hps := div_nonneg (neg_nonpos.mp hp) h.ratio.le
      have hlower := h.lower
      rw [limit_of_nonpos _ hp h, if_neg (by linarith)]

theorem InRange.at_position (h : bar.InRange moved) {moved' : ℚ} (hlower : 0 ≤ bar.position moved')
    (hupper : bar.position moved' ≤ bar.room) : bar.InRange moved' :=
  ⟨h.ratio, h.size, hlower, hupper⟩

theorem inRange_limit (h : bar.InRange moved) (p : ℚ) :
    bar.InRange (moved + bar.limit moved (p / bar.scrollRatio) p) := by
  have hposition := position_limit h p
  refine h.at_position ?_ ?_
  · rw [hposition]
    exact le_max_left _ _
  · rw [hposition]
    exact max_le (room_nonneg h) (min_le_left _ _)

/-- After a refresh the range is that of the view: what is viewed, with the pending move, stays in
the scrollable area. -/
theorem inRange_refresh_iff {layout : DocumentLayout} {direction : ℚ × ℚ → ℚ} {rightOffset : ℚ}
    (hsize : (bar.refresh layout direction rightOffset).scrollSize <
      (bar.refresh layout direction rightOffset).scrollLength)
    (hview : direction layout.anchorSize < direction layout.viewSize) (moved : ℚ) :
    (bar.refresh layout direction rightOffset).InRange moved ↔
      0 ≤ direction layout.viewed + moved ∧
        direction layout.viewed + moved ≤
          direction layout.viewSize - direction layout.anchorSize := by
  set refreshed := bar.refresh layout direction rightOffset with hrefreshed
  have hroom : 0 < refreshed.room := sub_pos.mpr hsize
  have hscale : refreshed.scrollRatio =
      (direction layout.viewSize - direction layout.anchorSize) / refreshed.room := rfl
  have hratio : 0 < refreshed.scrollRatio := hscale ▸ div_pos (sub_pos.mpr hview) hroom
  have hwhole : refreshed.room =
      (direction layout.viewSize - direction layout.anchorSize) / refreshed.scrollRatio := by
    rw [hscale, div_div_cancel₀ (sub_pos.mpr hview).ne']
  have hstart : refreshed.start =
      direction layout.viewed / refreshed.scrollRatio + refreshed.offset := rfl
  have hposition : refreshed.position moved =
      (direction layout.viewed + moved) / refreshed.scrollRatio := by
    rw [position, hstart, add_sub_cancel_right, add_div]
  constructor
  · intro h
    have hlower := h.lower
    have hupper := h.upper
    rw [hposition, le_div_iff₀ hratio, zero_mul] at hlower
    rw [hposition, hwhole, div_le_div_iff_of_pos_right hratio] at hupper
    exact ⟨hlower, hupper⟩
  · intro h
    refine ⟨hratio, hsize, ?_, ?_⟩
    · rw [hposition]
      exact div_nonneg h.1 hratio.le
    · rw [hposition, hwhole, div_le_div_iff_of_pos_right hratio]
      exact h.2

end ScrollBar

/-! ## Both directions -/

section

variable {s : ScrollProperties}

theorem scrollVertical_eq (pY : ℚ) :
    s.scrollVertical pY =
      { s with
        moveBy := some (s.pending +
          (0, s.vertical.limit s.pending.2 (pY / s.vertical.scrollRatio) pY)) } := by
  rw [ScrollProperties.scrollVertical, ScrollProperties.pending]
  cases s.moveBy <;> simp [Prod.ext_iff]

theorem scrollHorizontal_eq (rtl : Bool) (pX : ℚ) :
    s.scrollHorizontal rtl pX false =
      { s with
        moveBy := some (s.pending +
          (s.horizontal.limit s.pending.1 (pX / s.horizontal.scrollRatio)
            (if rtl then -pX else pX), 0)) } := by
  rw [ScrollProperties.scrollHorizontal, ScrollProperties.pending]
  cases s.moveBy <;> simp [Prod.ext_iff]

theorem inRange_moveBy (moveBy : ℚ × ℚ) :
    ({ s with moveBy := some moveBy } : ScrollProperties).InRange ↔
      s.horizontal.InRange moveBy.1 ∧ s.vertical.InRange moveBy.2 :=
  ⟨fun h => ⟨h.horizontal, h.vertical⟩, fun h => ⟨h.1, h.2⟩⟩

/-- A call keeps the properties in range exactly when a mirrored move fits. -/
theorem keeps_iff (h : s.InRange) (call : ScrollCall) :
    ScrollCall.Keeps s call (call.apply s) ↔ call.Fits s (call.apply s) := by
  cases call with
  | vertical pY =>
      refine iff_of_true ⟨?_, fun hhorizontal hvertical => ?_⟩ trivial
      · rw [ScrollCall.apply, scrollVertical_eq, inRange_moveBy]
        refine ⟨?_, ScrollBar.inRange_limit h.vertical pY⟩
        rw [Prod.fst_add, add_zero]
        exact h.horizontal
      · have hfull := ScrollBar.limit_eq_self (p := pY) h.vertical hvertical
        rw [ScrollCall.apply, scrollVertical_eq, hfull]
        rfl
  | horizontal rtl pX =>
      cases rtl with
      | false =>
          refine iff_of_true ⟨?_, fun hhorizontal hvertical => ?_⟩ fun hrtl => nomatch hrtl
          · rw [ScrollCall.apply, scrollHorizontal_eq, inRange_moveBy]
            refine ⟨ScrollBar.inRange_limit h.horizontal pX, ?_⟩
            rw [Prod.snd_add, add_zero]
            exact h.vertical
          · have hfull := ScrollBar.limit_eq_self (p := pX) h.horizontal hhorizontal
            simp only [ScrollCall.apply, scrollHorizontal_eq, ScrollCall.move, Bool.false_eq_true,
              if_false, hfull]
      | true =>
          have happly : ScrollCall.apply s (.horizontal true pX) =
              { s with moveBy := some (s.pending + (-pX, 0)) } := by
            rw [ScrollCall.apply, scrollHorizontal_eq, if_pos rfl,
              ScrollBar.limit_mirrored h.horizontal]
          constructor
          · intro hkeeps _
            have hrange := hkeeps.inRange
            rw [happly, inRange_moveBy, Prod.fst_add, ← sub_eq_add_neg] at hrange
            exact ⟨hrange.1.lower, hrange.1.upper⟩
          · intro hfits
            obtain ⟨hlower, hupper⟩ := hfits rfl
            refine ⟨?_, fun _ _ => happly⟩
            rw [happly, inRange_moveBy, Prod.fst_add, Prod.snd_add, add_zero, ← sub_eq_add_neg]
            exact ⟨h.horizontal.at_position hlower hupper, h.vertical⟩

end

/-- Scrolling stays in range, and moves that fit are made in full, as long as the mirrored moves of
right-to-left documents fit. -/
theorem allSteps_keeps_iff {s : ScrollProperties} (h : s.InRange) (calls : List ScrollCall) :
    AllSteps ScrollCall.step ScrollCall.Keeps s calls ↔
      AllSteps ScrollCall.step ScrollCall.Fits s calls := by
  refine allSteps_iff _ (I := ScrollProperties.InRange) ?_ ?_ h calls
  case refine_1 =>
    intro s call s' h hstep
    cases hstep
    exact keeps_iff h call
  case refine_2 =>
    intro s call s' _ _ hkeeps
    exact hkeeps.inRange

/-- A scroll bar of 20 on a length of 100, at the start. -/
def atStart : ScrollProperties :=
  ⟨⟨0, 100, 20, 20, 2, 0, 50⟩, ⟨0, 100, 20, 20, 2, 0, 50⟩, none⟩

theorem inRange_atStart : atStart.InRange := by
  constructor <;> constructor <;>
    norm_num [atStart, ScrollProperties.pending, ScrollBar.position, ScrollBar.room]

/-- Down, to the right in a left-to-right document, and back further than there is room. -/
theorem allSteps_keeps_threeCalls :
    AllSteps ScrollCall.step ScrollCall.Keeps atStart
      [.vertical 10, .horizontal false 30, .horizontal false (-50)] := by
  refine (allSteps_keeps_iff inRange_atStart _).mpr ?_
  refine allSteps_cons_of_step _ rfl trivial (allSteps_cons_of_step _ rfl ?_
    (allSteps_cons_of_step _ rfl ?_ trivial))
  · exact fun hrtl => nomatch hrtl
  · exact fun hrtl => nomatch hrtl

/-- At the start, a move to the right is a move out of the range when it is mirrored. -/
theorem not_keeps_mirrored :
    atStart.InRange ∧ ¬ AllSteps ScrollCall.step ScrollCall.Keeps atStart [.horizontal true 10] := by
  refine ⟨inRange_atStart, fun h => ?_⟩
  have hfits := (keeps_iff inRange_atStart _).mp (h.of_cons _ rfl).1
  have hlower := (hfits rfl).1
  norm_num [atStart, ScrollProperties.pending, ScrollBar.position] at hlower

end CoolOnline.ViewLayout
