import CoolOnline.Kit.TileQueue

/-! # The width of a combined tile

How many columns of the grid the tiles that are popped together span: the pass over the row of the
prioritized tile keeps to `maxCombinedGridSpan` columns, the passes over the neighbouring rows look
at one more.
-/

namespace CoolOnline.Kit

open SortedList TileDesc

namespace Prioritized

variable (p : Prioritized)

def column (t : TileDesc) : Int := gridX t p.tile.tileWidth

/-- The tiles of a row that can be combined with the prioritized one. -/
def rowAt (tilePosY : Int) : List TileDesc := p.queue.filter (allowCombineIfRow p.tile tilePosY)

def row : List TileDesc := p.rowAt p.tile.tilePosY

/-- The tiles of the rows above and below. -/
def neighbours : List TileDesc :=
  p.rowAt (p.tile.tilePosY - p.tile.tileHeight) ++ p.rowAt (p.tile.tilePosY + p.tile.tileHeight)

def distance (t : TileDesc) : Nat := (p.column t - p.column p.tile).natAbs

/-- Of two tiles at one distance the one to the right counts as the nearer. -/
def noFurther (t u : TileDesc) : Bool :=
  p.distance t < p.distance u || (p.distance t == p.distance u && p.column u ≤ p.column t)

/-- With all that are no further the tile spans fewer columns than are allowed. -/
def isReached (t : TileDesc) : Bool :=
  p.row.all fun u => p.row.all fun v =>
    !p.noFurther u t || !p.noFurther v t || p.column u - p.column v < maxCombinedGridSpan

def reached : List TileDesc := p.row.filter p.isReached

def leftColumn : Int := (p.reached.map p.column).min?.getD (p.column p.tile)

def rightColumn : Int := (p.reached.map p.column).max?.getD (p.column p.tile)

/-- There are tiles to take in both outermost columns that the passes over the neighbouring rows
look at. -/
def isTooWide : Bool :=
  let leftmost := (expandSpan p.leftColumn p.rightColumn).1
  let occupied (column : Int) := p.neighbours.any fun t => p.column t == column
  occupied (leftmost + maxCombinedGridSpan) && (occupied leftmost || p.leftColumn == leftmost)

end Prioritized

/-- The tiles popped together lie in a window of `maxCombinedGridSpan` columns. -/
def WithinSpan (getTilePriority : TileDesc → Int) (tileQueue : List TileDesc) : Prop :=
  ∃ popped, popTileQueue getTilePriority tileQueue = some popped ∧
    ∀ a ∈ popped.combined.tiles, ∀ b ∈ popped.combined.tiles,
      gridX a a.tileWidth - gridX b b.tileWidth < maxCombinedGridSpan

/-! ## Rows of a sorted queue -/

section Rows

theorem cons_between {a b : Int} {s k s' : List Int} (h : ¬ b :: k < a :: s)
    (h' : ¬ a :: s' < b :: k) : b = a ∧ ¬ k < s ∧ ¬ s' < k := by
  rw [List.cons_lt_cons_iff] at h h'
  have heq : b = a := by omega
  subst heq
  simpa using And.intro h h'

variable {prio t u : TileDesc} {x x' y : Int}

/-- Between two places of a row of tiles there are only tiles of that row. -/
theorem eq_of_between (h : prio.keyAt x y ≤ t.key) (h' : t.key ≤ prio.keyAt x' y) :
    t.id = prio.id ∧ t.tilePosY = y ∧ prio.sameTileCombineParams t = true ∧ x ≤ t.tilePosX ∧
      t.tilePosX ≤ x' := by
  have hlo := not_lt.mpr h
  have hhi := not_lt.mpr h'
  obtain ⟨hview, hlo, hhi⟩ := cons_between hlo hhi
  obtain ⟨hid, hlo, hhi⟩ := cons_between hlo hhi
  obtain ⟨hmode, hlo, hhi⟩ := cons_between hlo hhi
  obtain ⟨hpart, hlo, hhi⟩ := cons_between hlo hhi
  obtain ⟨hheight, hlo, hhi⟩ := cons_between hlo hhi
  obtain ⟨hwidth, hlo, hhi⟩ := cons_between hlo hhi
  obtain ⟨htileHeight, hlo, hhi⟩ := cons_between hlo hhi
  obtain ⟨htileWidth, hlo, hhi⟩ := cons_between hlo hhi
  obtain ⟨hy, hlo, hhi⟩ := cons_between hlo hhi
  simp only [List.cons_lt_cons_iff, List.lt_irrefl, and_false, or_false, not_lt] at hlo hhi
  refine ⟨hid, hy, ?_, hlo, hhi⟩
  simp [sameTileCombineParams, hview, hmode, hpart, hheight, hwidth, htileHeight, htileWidth]

theorem allowCombineIfRow_iff : allowCombineIfRow prio y t = true ↔
    t.tilePosY = y ∧ prio.id < 0 ∧ t.id < 0 ∧ prio.sameTileCombineParams t = true := by
  rw [allowCombineIfRow, Bool.and_eq_true, beq_iff_eq, allowCombine_iff, eq_comm]

theorem key_of_allowCombineIfRow (hprio : Queued prio) (ht : Queued t)
    (h : allowCombineIfRow prio y t = true) : t.key = prio.keyAt t.tilePosX y := by
  rw [allowCombineIfRow, Bool.and_eq_true, beq_iff_eq] at h
  rw [key_of_allowCombine hprio ht h.2, h.1]

theorem allowCombineIfRow_of_between (hid : prio.id < 0) (h : prio.keyAt x y ≤ t.key)
    (h' : t.key ≤ prio.keyAt x' y) : allowCombineIfRow prio y t = true := by
  obtain ⟨hid', hy, hsame, -, -⟩ := eq_of_between h h'
  exact allowCombineIfRow_iff.mpr ⟨hy, hid, hid' ▸ hid, hsame⟩

theorem tileWidth_of_allowCombineIfRow (h : allowCombineIfRow prio y t = true) :
    t.tileWidth = prio.tileWidth := by
  have hsame := (allowCombineIfRow_iff.mp h).2.2.2
  simp only [sameTileCombineParams, Bool.and_eq_true, beq_iff_eq] at hsame
  omega

variable {p : Prioritized}

theorem Prioritized.mem_rowAt : t ∈ p.rowAt y ↔
    t ∈ p.queue ∧ allowCombineIfRow p.tile y t = true := List.mem_filter

theorem Prioritized.tile_mem_row (hid : p.tile.id < 0) : p.tile ∈ p.row :=
  mem_rowAt.mpr ⟨p.tile_mem, allowCombineIfRow_iff.mpr ⟨rfl, hid, hid, sameTileCombineParams_refl _⟩⟩

theorem Prioritized.column_bounds (hsorted : Sorted p.queue) (ht : t ∈ p.queue) :
    0 ≤ p.column t ∧ p.column t ≤ intMax :=
  gridX_bounds (hsorted.queued t ht) (hsorted.queued _ p.tile_mem).valid.2.2

/-- The tiles of the row stand in the order of their columns. -/
theorem Prioritized.column_le (hsorted : Sorted p.queue) (ht : t ∈ p.row) (hu : u ∈ p.row)
    (h : t.key < u.key) : p.column t ≤ p.column u := by
  have hprio := hsorted.queued _ p.tile_mem
  obtain ⟨htq, htrow⟩ := mem_rowAt.mp ht
  obtain ⟨huq, hurow⟩ := mem_rowAt.mp hu
  have hlt := InRow.tilePosX_lt hprio (hsorted.queued t htq) (hsorted.queued u huq) (Or.inr htrow)
    (Or.inr hurow) h
  exact gridX_mono hprio.valid.2.2 hlt.le

/-- What stands between two tiles of the row is in the row. -/
theorem Prioritized.mem_row_of_between {v : TileDesc} (hsorted : Sorted p.queue) (ht : t ∈ p.row)
    (hu : u ∈ p.queue) (hv : v ∈ p.row) (h : t.key < u.key) (h' : u.key < v.key) : u ∈ p.row := by
  have hprio := hsorted.queued _ p.tile_mem
  obtain ⟨htq, htrow⟩ := mem_rowAt.mp ht
  obtain ⟨hvq, hvrow⟩ := mem_rowAt.mp hv
  rw [key_of_allowCombineIfRow hprio (hsorted.queued t htq) htrow] at h
  rw [key_of_allowCombineIfRow hprio (hsorted.queued v hvq) hvrow] at h'
  have hid := (allowCombineIfRow_iff.mp htrow).2.1
  exact mem_rowAt.mpr ⟨hu, allowCombineIfRow_of_between hid h.le h'.le⟩

end Rows

/-! ## The tiles in reach -/

section Reach

variable {p : Prioritized} {s : HoriScan} {taken : List TileDesc} {t u : TileDesc}

theorem Scanned.lt_of_left (hsorted : Sorted p.queue) (h : Scanned p.tile p.queue s taken)
    (hu : u ∈ s.left) (ht : t ∈ taken) : u.key < t.key := by
  have hstrict := hsorted.strict
  rw [h.queue, Strict, List.pairwise_append] at hstrict
  exact hstrict.2.2 u (by simpa using hu) t (by simp [ht])

theorem Scanned.lt_of_right (hsorted : Sorted p.queue) (h : Scanned p.tile p.queue s taken)
    (hu : u ∈ s.right) (ht : t ∈ taken) : t.key < u.key := by
  have hstrict := hsorted.strict
  rw [h.queue, Strict, List.pairwise_append, List.pairwise_append] at hstrict
  exact hstrict.2.1.2.2 t ht u hu

theorem Scanned.mem_queue (h : Scanned p.tile p.queue s taken) :
    t ∈ p.queue ↔ t ∈ s.left ∨ t ∈ taken ∨ t ∈ s.right := by
  rw [h.queue]
  simp

theorem Scanned.mem_row (h : Scanned p.tile p.queue s taken) (hid : p.tile.id < 0)
    (ht : t ∈ taken) : t ∈ p.row := by
  rcases h.row t ht with rfl | hrow
  · exact Prioritized.tile_mem_row hid
  · exact Prioritized.mem_rowAt.mpr ⟨h.mem_queue.mpr (Or.inr (Or.inl ht)), hrow⟩

/-- The first tile to the left is in the row if any is. -/
theorem Scanned.left_first (hsorted : Sorted p.queue) (h : Scanned p.tile p.queue s taken)
    (hid : p.tile.id < 0) (hu : u ∈ s.left) (hrow : u ∈ p.row) :
    ∃ first rest, s.left = first :: rest ∧ first ∈ p.row ∧ p.column u ≤ p.column first := by
  obtain ⟨first, rest, hleft⟩ := List.exists_cons_of_ne_nil (List.ne_nil_of_mem hu)
  refine ⟨first, rest, hleft, ?_⟩
  rw [hleft] at hu
  rcases List.mem_cons.mp hu with rfl | hu
  · exact ⟨hrow, le_refl _⟩
  · have hstrict := hsorted.strict
    rw [h.queue, hleft, Strict, List.pairwise_append, List.pairwise_reverse,
      List.pairwise_cons] at hstrict
    have hlt := hstrict.1.1 u hu
    have hfirst : first ∈ s.left := by simp [hleft]
    have hmem : first ∈ p.row := Prioritized.mem_row_of_between hsorted hrow
      (h.mem_queue.mpr (Or.inl hfirst)) (Prioritized.tile_mem_row hid) hlt
      (h.lt_of_left hsorted hfirst h.prio)
    exact ⟨hmem, Prioritized.column_le hsorted hrow hmem hlt⟩

/-- The first tile to the right is in the row if any is. -/
theorem Scanned.right_first (hsorted : Sorted p.queue) (h : Scanned p.tile p.queue s taken)
    (hid : p.tile.id < 0) (hu : u ∈ s.right) (hrow : u ∈ p.row) :
    ∃ first rest, s.right = first :: rest ∧ first ∈ p.row ∧ p.column first ≤ p.column u := by
  obtain ⟨first, rest, hright⟩ := List.exists_cons_of_ne_nil (List.ne_nil_of_mem hu)
  refine ⟨first, rest, hright, ?_⟩
  rw [hright] at hu
  rcases List.mem_cons.mp hu with rfl | hu
  · exact ⟨hrow, le_refl _⟩
  · have hstrict := hsorted.strict
    rw [h.queue, hright, Strict, List.pairwise_append, List.pairwise_append,
      List.pairwise_cons] at hstrict
    have hlt := hstrict.2.1.2.1.1 u hu
    have hfirst : first ∈ s.right := by simp [hright]
    have hmem : first ∈ p.row := Prioritized.mem_row_of_between hsorted
      (Prioritized.tile_mem_row hid) (h.mem_queue.mpr (Or.inr (Or.inr hfirst))) hrow
      (h.lt_of_right hsorted hfirst h.prio) hlt
    exact ⟨hmem, Prioritized.column_le hsorted hmem hrow hlt⟩

theorem Scanned.column_left (hsorted : Sorted p.queue) (h : Scanned p.tile p.queue s taken)
    (hid : p.tile.id < 0) (hu : u ∈ s.left) (hrow : u ∈ p.row) :
    p.column u ≤ p.column p.tile :=
  Prioritized.column_le hsorted hrow (Prioritized.tile_mem_row hid)
    (h.lt_of_left hsorted hu h.prio)

theorem Scanned.column_right (hsorted : Sorted p.queue) (h : Scanned p.tile p.queue s taken)
    (hid : p.tile.id < 0) (hu : u ∈ s.right) (hrow : u ∈ p.row) :
    p.column p.tile ≤ p.column u :=
  Prioritized.column_le hsorted (Prioritized.tile_mem_row hid) hrow
    (h.lt_of_right hsorted hu h.prio)

/-- What the scan has taken is nearer than what it has left, and it spans fewer columns than are
allowed. -/
structure Reaching (p : Prioritized) (s : HoriScan) (taken : List TileDesc) : Prop where
  scanned : Scanned p.tile p.queue s taken
  leftmost : ∃ t ∈ taken, p.column t = s.leftGridX
  rightmost : ∃ t ∈ taken, p.column t = s.rightGridX
  columns : ∀ t ∈ taken, p.column t ≤ s.rightGridX
  span : s.rightGridX - s.leftGridX < maxCombinedGridSpan
  nearest : ∀ t ∈ taken, ∀ u ∈ p.row, u ∈ s.left ∨ u ∈ s.right → p.noFurther t u = true

/-- What the scan has left is out of reach. -/
def Complete (p : Prioritized) (s : HoriScan) : Prop :=
  ∀ u ∈ p.row, u ∈ s.left ∨ u ∈ s.right → p.isReached u = false

theorem Prioritized.isReached_eq_false {v : TileDesc} (hu : u ∈ p.row) (hv : v ∈ p.row)
    (hut : p.noFurther u t = true) (hvt : p.noFurther v t = true)
    (hspan : maxCombinedGridSpan ≤ p.column u - p.column v) : p.isReached t = false := by
  by_contra hreached
  rw [Bool.not_eq_false, isReached, List.all_eq_true] at hreached
  have hboth := List.all_eq_true.mp (hreached u hu) v hv
  simp only [hut, hvt, Bool.not_true, Bool.false_or, decide_eq_true_eq] at hboth
  omega

theorem Prioritized.noFurther_iff : p.noFurther t u = true ↔
    p.distance t < p.distance u ∨ p.distance t = p.distance u ∧ p.column u ≤ p.column t := by
  simp [noFurther]

/-- The tiles taken are in reach. -/
theorem Reaching.isReached (h : Reaching p s taken) (ht : t ∈ taken) : p.isReached t = true := by
  have hwithin {u : TileDesc} (hu : u ∈ p.row) (hut : p.noFurther u t = true) :
      s.leftGridX ≤ p.column u ∧ p.column u ≤ s.rightGridX := by
    have htaken {v : TileDesc} (hv : v ∈ taken) :
        s.leftGridX ≤ p.column v ∧ p.column v ≤ s.rightGridX :=
      ⟨h.scanned.leftGridX v hv, h.columns v hv⟩
    have hleft : u ∈ s.left ∨ u ∈ s.right → p.column u = p.column t := by
      intro hrest
      have htu := Prioritized.noFurther_iff.mp (h.nearest t ht u hu hrest)
      rw [Prioritized.noFurther_iff] at hut
      omega
    rcases h.scanned.mem_queue.mp (Prioritized.mem_rowAt.mp hu).1 with hmem | hmem | hmem
    · exact hleft (Or.inl hmem) ▸ htaken ht
    · exact htaken hmem
    · exact hleft (Or.inr hmem) ▸ htaken ht
  rw [Prioritized.isReached, List.all_eq_true]
  intro u hu
  rw [List.all_eq_true]
  intro v hv
  cases hut : p.noFurther u t with
  | false => rfl
  | true =>
      cases hvt : p.noFurther v t with
      | false => rfl
      | true =>
          have hspan := h.span
          have hu' := hwithin hu hut
          have hv' := hwithin hv hvt
          simp only [Bool.not_true, Bool.false_or, decide_eq_true_eq]
          omega

/-- The candidate on one side. -/
def Prioritized.candidate (p : Prioritized) (side : List TileDesc) : Option TileDesc :=
  side.head?.filter (allowCombineIfRow p.tile p.tile.tilePosY)

theorem Prioritized.candidate_eq_some {side : List TileDesc} (hside : ∀ u ∈ side, u ∈ p.queue)
    (ht : p.candidate side = some t) : ∃ rest, side = t :: rest ∧ t ∈ p.row := by
  obtain ⟨hhead, hrow⟩ := Option.filter_eq_some_iff.mp ht
  obtain ⟨rest, hcons⟩ := List.head?_eq_some_iff.mp hhead
  have hmem : t ∈ side := by simp [hcons]
  exact ⟨rest, hcons, Prioritized.mem_rowAt.mpr ⟨hside t hmem, hrow⟩⟩

theorem Prioritized.candidate_cons {rest : List TileDesc} (hrow : t ∈ p.row) :
    p.candidate (t :: rest) = some t := by
  rw [Prioritized.candidate, List.head?_cons,
    Option.filter_some_pos (Prioritized.mem_rowAt.mp hrow).2]

theorem Scanned.candidate_left (h : Scanned p.tile p.queue s taken)
    (ht : p.candidate s.left = some t) : ∃ left, s.left = t :: left ∧ t ∈ p.row :=
  Prioritized.candidate_eq_some (fun _ hu => h.mem_queue.mpr (Or.inl hu)) ht

theorem Scanned.candidate_right (h : Scanned p.tile p.queue s taken)
    (ht : p.candidate s.right = some t) : ∃ right, s.right = t :: right ∧ t ∈ p.row :=
  Prioritized.candidate_eq_some (fun _ hu => h.mem_queue.mpr (Or.inr (Or.inr hu))) ht

theorem Scanned.candidate_of_left (hsorted : Sorted p.queue)
    (h : Scanned p.tile p.queue s taken) (hid : p.tile.id < 0) (hu : u ∈ s.left)
    (hrow : u ∈ p.row) : ∃ first, p.candidate s.left = some first ∧
      p.column u ≤ p.column first ∧ p.column first ≤ p.column p.tile := by
  obtain ⟨first, rest, hleft, hmem, hle⟩ := h.left_first hsorted hid hu hrow
  have hin : first ∈ s.left := by simp [hleft]
  refine ⟨first, ?_, hle, h.column_left hsorted hid hin hmem⟩
  rw [hleft, Prioritized.candidate_cons hmem]

theorem Scanned.candidate_of_right (hsorted : Sorted p.queue)
    (h : Scanned p.tile p.queue s taken) (hid : p.tile.id < 0) (hu : u ∈ s.right)
    (hrow : u ∈ p.row) : ∃ first, p.candidate s.right = some first ∧
      p.column first ≤ p.column u ∧ p.column p.tile ≤ p.column first := by
  obtain ⟨first, rest, hright, hmem, hle⟩ := h.right_first hsorted hid hu hrow
  have hin : first ∈ s.right := by simp [hright]
  refine ⟨first, ?_, hle, h.column_right hsorted hid hin hmem⟩
  rw [hright, Prioritized.candidate_cons hmem]

/-- A left candidate that is the nearest is no further than what is left. -/
theorem Scanned.noFurther_left (hsorted : Sorted p.queue) (h : Scanned p.tile p.queue s taken)
    (hid : p.tile.id < 0) (ht : p.candidate s.left = some t)
    (hr : ∀ u, p.candidate s.right = some u →
      p.column p.tile - p.column t < p.column u - p.column p.tile)
    (hu : u ∈ p.row) (hrest : u ∈ s.left ∨ u ∈ s.right) : p.noFurther t u = true := by
  obtain ⟨left, hcons, hrow⟩ := h.candidate_left ht
  have hcolumn := h.column_left hsorted hid (by simp [hcons]) hrow
  rw [Prioritized.noFurther_iff, Prioritized.distance, Prioritized.distance]
  rcases hrest with hleft | hright
  · obtain ⟨first, hfirst, hle, -⟩ := h.candidate_of_left hsorted hid hleft hu
    rw [ht] at hfirst
    cases hfirst
    omega
  · obtain ⟨first, hfirst, hle, -⟩ := h.candidate_of_right hsorted hid hright hu
    have hlt := hr first hfirst
    omega

/-- So is a right candidate that is as near. -/
theorem Scanned.noFurther_right (hsorted : Sorted p.queue) (h : Scanned p.tile p.queue s taken)
    (hid : p.tile.id < 0) (ht : p.candidate s.right = some t)
    (hl : ∀ u, p.candidate s.left = some u →
      p.column t - p.column p.tile ≤ p.column p.tile - p.column u)
    (hu : u ∈ p.row) (hrest : u ∈ s.left ∨ u ∈ s.right) : p.noFurther t u = true := by
  obtain ⟨right, hcons, hrow⟩ := h.candidate_right ht
  have hcolumn := h.column_right hsorted hid (by simp [hcons]) hrow
  rw [Prioritized.noFurther_iff, Prioritized.distance, Prioritized.distance]
  rcases hrest with hleft | hright
  · obtain ⟨first, hfirst, hle, -⟩ := h.candidate_of_left hsorted hid hleft hu
    have hlt := hl first hfirst
    omega
  · obtain ⟨first, hfirst, hle, -⟩ := h.candidate_of_right hsorted hid hright hu
    rw [ht] at hfirst
    cases hfirst
    omega

theorem horiMove_none (hl : p.candidate s.left = none) (hr : p.candidate s.right = none) :
    horiMove p.tile s = .stop := by
  simp only [Prioritized.candidate] at hl hr
  simp [horiMove, hl, hr]

/-- The left candidate is the nearest. -/
theorem horiMove_left (hl : p.candidate s.left = some t)
    (hr : ∀ u, p.candidate s.right = some u →
      p.column p.tile - p.column t < p.column u - p.column p.tile)
    (hfar : p.column p.tile - p.column t < intMax) :
    horiMove p.tile s =
      if s.rightGridX - p.column t ≥ maxCombinedGridSpan then .stop
      else .takeLeft (p.column t) := by
  simp only [Prioritized.candidate, Prioritized.column] at hl hr hfar ⊢
  simp only [horiMove, hl, Option.map_some, Option.getD_some, Option.isNone_some,
    Bool.false_eq_true, false_and, if_false]
  cases hright : s.right.head?.filter (allowCombineIfRow p.tile p.tile.tilePosY) with
  | none => exact if_pos hfar
  | some u => exact if_pos (hr u hright)

/-- The right candidate is no further than the left one. -/
theorem horiMove_right (hr : p.candidate s.right = some t)
    (hl : ∀ u, p.candidate s.left = some u →
      p.column t - p.column p.tile ≤ p.column p.tile - p.column u)
    (hfar : p.column t - p.column p.tile ≤ intMax) :
    horiMove p.tile s =
      if p.column t - s.leftGridX ≥ maxCombinedGridSpan then .stop
      else .takeRight (p.column t) := by
  simp only [Prioritized.candidate, Prioritized.column] at hl hr hfar ⊢
  simp only [horiMove, hr, Option.map_some, Option.getD_some, Option.isNone_some,
    Bool.false_eq_true, and_false, if_false]
  cases hleft : s.left.head?.filter (allowCombineIfRow p.tile p.tile.tilePosY) with
  | none => exact if_neg (not_lt.mpr hfar)
  | some u => exact if_neg (not_lt.mpr (hl u hleft))

/-- The left candidate is taken. -/
theorem Reaching.takeLeft (hsorted : Sorted p.queue) (hid : p.tile.id < 0)
    (h : Reaching p s taken) {left : List TileDesc} (hcons : s.left = t :: left)
    (hl : p.candidate s.left = some t) (hrow : t ∈ p.row)
    (hr : ∀ u, p.candidate s.right = some u →
      p.column p.tile - p.column t < p.column u - p.column p.tile)
    (hspan : s.rightGridX - p.column t < maxCombinedGridSpan) :
    Reaching p
      { s with
        left := left
        leftGridX := p.column t
        destTiles := sortedInsert s.destTiles t } (t :: taken) := by
  have hmem : t ∈ s.left := by simp [hcons]
  have hcolumn := h.scanned.column_left hsorted hid hmem hrow
  have hrest' {u : TileDesc} (hrest : u ∈ left ∨ u ∈ s.right) : u ∈ s.left ∨ u ∈ s.right := by
    rw [hcons]
    exact hrest.imp_left (List.mem_cons_of_mem t)
  constructor
  · exact h.scanned.takeLeft hsorted hcons (Prioritized.mem_rowAt.mp hrow).2
  · exact ⟨t, List.mem_cons_self, rfl⟩
  · obtain ⟨v, hv, heq⟩ := h.rightmost
    exact ⟨v, List.mem_cons_of_mem t hv, heq⟩
  · intro v hv
    rcases List.mem_cons.mp hv with rfl | hv
    · exact hcolumn.trans h.scanned.rightGridX
    · exact h.columns v hv
  · exact hspan
  · intro v hv u hu hrest
    rcases List.mem_cons.mp hv with rfl | hv
    · exact h.scanned.noFurther_left hsorted hid hl hr hu (hrest' hrest)
    · exact h.nearest v hv u hu (hrest' hrest)

/-- The right candidate is taken. -/
theorem Reaching.takeRight (hsorted : Sorted p.queue) (hid : p.tile.id < 0)
    (h : Reaching p s taken) {right : List TileDesc} (hcons : s.right = t :: right)
    (hr : p.candidate s.right = some t) (hrow : t ∈ p.row)
    (hl : ∀ u, p.candidate s.left = some u →
      p.column t - p.column p.tile ≤ p.column p.tile - p.column u)
    (hspan : p.column t - s.leftGridX < maxCombinedGridSpan) :
    Reaching p
      { s with
        right := right
        rightGridX := p.column t
        destTiles := sortedInsert s.destTiles t } (taken ++ [t]) := by
  have hmem : t ∈ s.right := by simp [hcons]
  have hrest' {u : TileDesc} (hrest : u ∈ s.left ∨ u ∈ right) : u ∈ s.left ∨ u ∈ s.right := by
    rw [hcons]
    exact hrest.imp_right (List.mem_cons_of_mem t)
  constructor
  · exact h.scanned.takeRight hsorted hcons (Prioritized.mem_rowAt.mp hrow).2
  · obtain ⟨v, hv, heq⟩ := h.leftmost
    exact ⟨v, List.mem_append_left [t] hv, heq⟩
  · exact ⟨t, by simp, rfl⟩
  · intro v hv
    rcases List.mem_append.mp hv with hv | hv
    · exact Prioritized.column_le hsorted (h.scanned.mem_row hid hv) hrow
        (h.scanned.lt_of_right hsorted hmem hv)
    · rw [List.mem_singleton.mp hv]
  · exact hspan
  · intro v hv u hu hrest
    rcases List.mem_append.mp hv with hv | hv
    · exact h.nearest v hv u hu (hrest' hrest)
    · rw [List.mem_singleton.mp hv]
      exact h.scanned.noFurther_right hsorted hid hr hl hu (hrest' hrest)

/-- The left candidate is out of reach, and then so is all that is left. -/
theorem Reaching.complete_of_left (hsorted : Sorted p.queue) (hid : p.tile.id < 0)
    (h : Reaching p s taken) (ht : p.candidate s.left = some t)
    (hr : ∀ u, p.candidate s.right = some u →
      p.column p.tile - p.column t < p.column u - p.column p.tile)
    (hspan : maxCombinedGridSpan ≤ s.rightGridX - p.column t) : Complete p s := by
  obtain ⟨left, -, hrow⟩ := h.scanned.candidate_left ht
  obtain ⟨v, hv, heq⟩ := h.rightmost
  intro u hu hrest
  apply Prioritized.isReached_eq_false (h.scanned.mem_row hid hv) hrow (h.nearest v hv u hu hrest)
  · exact h.scanned.noFurther_left hsorted hid ht hr hu hrest
  · rw [heq]
    exact hspan

/-- The right candidate is out of reach, and then so is all that is left. -/
theorem Reaching.complete_of_right (hsorted : Sorted p.queue) (hid : p.tile.id < 0)
    (h : Reaching p s taken) (ht : p.candidate s.right = some t)
    (hl : ∀ u, p.candidate s.left = some u →
      p.column t - p.column p.tile ≤ p.column p.tile - p.column u)
    (hspan : maxCombinedGridSpan ≤ p.column t - s.leftGridX) : Complete p s := by
  obtain ⟨right, -, hrow⟩ := h.scanned.candidate_right ht
  obtain ⟨v, hv, heq⟩ := h.leftmost
  intro u hu hrest
  apply Prioritized.isReached_eq_false hrow (h.scanned.mem_row hid hv) _ (h.nearest v hv u hu hrest)
  · rw [heq]
    exact hspan
  · exact h.scanned.noFurther_right hsorted hid ht hl hu hrest

theorem Prioritized.candidate_cases (p : Prioritized) (left right : List TileDesc) :
    (p.candidate left = none ∧ p.candidate right = none) ∨
      (∃ t, p.candidate left = some t ∧ ∀ u, p.candidate right = some u →
        p.column p.tile - p.column t < p.column u - p.column p.tile) ∨
      ∃ t, p.candidate right = some t ∧ ∀ u, p.candidate left = some u →
        p.column t - p.column p.tile ≤ p.column p.tile - p.column u := by
  cases hl : p.candidate left with
  | none =>
      cases hr : p.candidate right with
      | none => exact Or.inl ⟨rfl, rfl⟩
      | some u => exact Or.inr (Or.inr ⟨u, rfl, fun v hv => by cases hv⟩)
  | some t =>
      cases hr : p.candidate right with
      | none => exact Or.inr (Or.inl ⟨t, rfl, fun v hv => by cases hv⟩)
      | some u =>
          rcases lt_or_ge (p.column p.tile - p.column t) (p.column u - p.column p.tile) with
            hlt | hge
          · exact Or.inr (Or.inl ⟨t, rfl, fun v hv => by cases hv; exact hlt⟩)
          · exact Or.inr (Or.inr ⟨u, rfl, fun v hv => by cases hv; exact hge⟩)

/-- The scan takes the tiles in reach and stops. -/
theorem horiScan_complete (hsorted : Sorted p.queue) (hover : overruns p = false)
    (hid : p.tile.id < 0) (rounds : Nat) (hrounds : s.left.length + s.right.length ≤ rounds)
    (h : Reaching p s taken) :
    ∃ s' taken', horiScan p.tile rounds s = some s' ∧ Reaching p s' taken' ∧ Complete p s' := by
  induction rounds generalizing s taken with
  | zero =>
      have hleft : s.left = [] := List.length_eq_zero_iff.mp (by omega)
      have hright : s.right = [] := List.length_eq_zero_iff.mp (by omega)
      exact ⟨s, taken, rfl, h, by simp [Complete, hleft, hright]⟩
  | succ rounds ih =>
      rcases p.candidate_cases s.left s.right with ⟨hl, hr⟩ | ⟨t, hl, hr⟩ | ⟨t, hr, hl⟩
      · refine ⟨s, taken, by simp only [horiScan, horiMove_none hl hr], h, ?_⟩
        intro u hu hrest
        rcases hrest with hleft | hright
        · obtain ⟨first, hfirst, -⟩ := h.scanned.candidate_of_left hsorted hid hleft hu
          rw [hl] at hfirst
          cases hfirst
        · obtain ⟨first, hfirst, -⟩ := h.scanned.candidate_of_right hsorted hid hright hu
          rw [hr] at hfirst
          cases hfirst
      · obtain ⟨left, hcons, hrow⟩ := h.scanned.candidate_left hl
        have hfar : p.column p.tile - p.column t < intMax := by
          have hreach := h.scanned.left_inReach hsorted hover (t := t) (by simp [hcons])
            (Prioritized.mem_rowAt.mp hrow).2
          exact hreach.resolve_right (not_le.mpr h.span)
        have hmove := horiMove_left hl hr hfar
        by_cases hspan : s.rightGridX - p.column t ≥ maxCombinedGridSpan
        · rw [if_pos hspan] at hmove
          exact ⟨s, taken, by simp only [horiScan, hmove], h,
            h.complete_of_left hsorted hid hl hr hspan⟩
        · rw [if_neg hspan] at hmove
          simp only [horiScan, hmove, hcons]
          apply ih _ (h.takeLeft hsorted hid hcons hl hrow hr (not_le.mp hspan))
          rw [hcons, List.length_cons] at hrounds
          change left.length + s.right.length ≤ rounds
          omega
      · obtain ⟨right, hcons, hrow⟩ := h.scanned.candidate_right hr
        have hfar : p.column t - p.column p.tile ≤ intMax := by
          have hbounds := Prioritized.column_bounds hsorted (Prioritized.mem_rowAt.mp hrow).1
          have hbounds' := Prioritized.column_bounds hsorted p.tile_mem
          omega
        have hmove := horiMove_right hr hl hfar
        by_cases hspan : p.column t - s.leftGridX ≥ maxCombinedGridSpan
        · rw [if_pos hspan] at hmove
          exact ⟨s, taken, by simp only [horiScan, hmove], h,
            h.complete_of_right hsorted hid hr hl hspan⟩
        · rw [if_neg hspan] at hmove
          simp only [horiScan, hmove, hcons]
          apply ih _ (h.takeRight hsorted hid hcons hr hrow hl (not_le.mp hspan))
          rw [hcons, List.length_cons] at hrounds
          change s.left.length + right.length ≤ rounds
          omega

theorem Complete.mem_iff (hid : p.tile.id < 0) (h : Reaching p s taken)
    (hcomplete : Complete p s) : t ∈ taken ↔ t ∈ p.reached := by
  rw [Prioritized.reached, List.mem_filter]
  constructor
  · intro ht
    exact ⟨h.scanned.mem_row hid ht, h.isReached ht⟩
  · rintro ⟨hrow, hreached⟩
    have hout : ¬ (t ∈ s.left ∨ t ∈ s.right) := by
      intro hrest
      rw [hcomplete t hrow hrest] at hreached
      cases hreached
    rcases h.scanned.mem_queue.mp (Prioritized.mem_rowAt.mp hrow).1 with hmem | hmem | hmem
    · exact absurd (Or.inl hmem) hout
    · exact hmem
    · exact absurd (Or.inr hmem) hout

theorem Complete.leftGridX_eq (hid : p.tile.id < 0) (h : Reaching p s taken)
    (hcomplete : Complete p s) : s.leftGridX = p.leftColumn := by
  have hmin : (p.reached.map p.column).min? = some s.leftGridX := by
    rw [List.min?_eq_some_iff]
    constructor
    · obtain ⟨t, ht, heq⟩ := h.leftmost
      exact List.mem_map.mpr ⟨t, (hcomplete.mem_iff hid h).mp ht, heq⟩
    · intro column hcolumn
      obtain ⟨t, ht, rfl⟩ := List.mem_map.mp hcolumn
      exact h.scanned.leftGridX t ((hcomplete.mem_iff hid h).mpr ht)
  rw [Prioritized.leftColumn, hmin, Option.getD_some]

theorem Complete.rightGridX_eq (hid : p.tile.id < 0) (h : Reaching p s taken)
    (hcomplete : Complete p s) : s.rightGridX = p.rightColumn := by
  have hmax : (p.reached.map p.column).max? = some s.rightGridX := by
    rw [List.max?_eq_some_iff]
    constructor
    · obtain ⟨t, ht, heq⟩ := h.rightmost
      exact List.mem_map.mpr ⟨t, (hcomplete.mem_iff hid h).mp ht, heq⟩
    · intro column hcolumn
      obtain ⟨t, ht, rfl⟩ := List.mem_map.mp hcolumn
      exact h.columns t ((hcomplete.mem_iff hid h).mpr ht)
  rw [Prioritized.rightColumn, hmax, Option.getD_some]

/-- What `combineHoriAround` takes and leaves. -/
theorem combineHoriAround_spec (hsorted : Sorted p.queue) (hover : overruns p = false)
    (hid : p.tile.id < 0) :
    ∃ s taken, combineHoriAround p.tile p.before p.after = some s ∧ Reaching p s taken ∧
      (∀ t, t ∈ taken ↔ t ∈ p.reached) ∧ s.leftGridX = p.leftColumn ∧
      s.rightGridX = p.rightColumn := by
  have hstart : Reaching p ⟨p.before.reverse, p.after, p.column p.tile, p.column p.tile, [p.tile]⟩
      [p.tile] := by
    have hself : ∀ t ∈ [p.tile], p.column t = p.column p.tile := by
      intro t ht
      rw [List.mem_singleton.mp ht]
    refine ⟨⟨by simp [Prioritized.queue], List.Perm.refl _, List.mem_singleton_self _, ?_, le_refl _,
      fun t ht => (hself t ht).ge⟩, ⟨p.tile, by simp, rfl⟩, ⟨p.tile, by simp, rfl⟩,
      fun t ht => (hself t ht).le, ?_, ?_⟩
    · intro t ht
      exact Or.inl (List.mem_singleton.mp ht)
    · rw [Int.sub_self]
      decide
    · intro t ht u _ _
      rw [List.mem_singleton.mp ht, Prioritized.noFurther_iff, Prioritized.distance,
        Prioritized.distance]
      omega
  obtain ⟨s, taken, hscan, hreaching, hcomplete⟩ := horiScan_complete hsorted hover hid
    (p.before.length + p.after.length) (by simp) hstart
  exact ⟨s, taken, hscan, hreaching, fun t => hcomplete.mem_iff hid hreaching,
    hcomplete.leftGridX_eq hid hreaching, hcomplete.rightGridX_eq hid hreaching⟩

end Reach

/-! ## The neighbouring rows -/

section Vertical

variable {prio t : TileDesc} {queue dest : List TileDesc} {y leftGridX rightGridX : Int}

theorem mem_sortedInsert_self (tile : TileDesc) (l : List TileDesc) : tile ∈ sortedInsert l tile := by
  rcases insert_cases TileDesc.key l tile with ⟨-, after, -, -, -, heq⟩ | ⟨heq, -⟩
  · rw [sortedInsert, heq]
    simp
  · rw [sortedInsert, heq]
    simp

/-- The columns that are taken from a row. -/
def InWindow (prio : TileDesc) (y leftGridX rightGridX : Int) (t : TileDesc) : Prop :=
  allowCombineIfRow prio y t = true ∧ leftGridX ≤ gridX t prio.tileWidth ∧
    gridX t prio.tileWidth ≤ rightGridX

theorem mem_of_mem_takeRow (h : t ∈ (takeRow prio y leftGridX rightGridX queue dest).2) :
    t ∈ dest ∨ t ∈ queue ∧ InWindow prio y leftGridX rightGridX t := by
  induction queue generalizing dest with
  | nil => exact Or.inl h
  | cons tile rest ih =>
      simp only [takeRow] at h
      split at h
      · next hrow =>
          split at h
          · next hcolumns =>
              rcases ih h with hdest | ⟨hmem, hwindow⟩
              · rcases SortedList.mem_insert hdest with rfl | hdest
                · rw [tileWidth_of_allowCombineIfRow hrow] at hcolumns
                  exact Or.inr ⟨List.mem_cons_self, hrow, hcolumns⟩
                · exact Or.inl hdest
              · exact Or.inr ⟨List.mem_cons_of_mem tile hmem, hwindow⟩
          · rcases ih h with hdest | ⟨hmem, hwindow⟩
            · exact Or.inl hdest
            · exact Or.inr ⟨List.mem_cons_of_mem tile hmem, hwindow⟩
      · exact Or.inl h

/-- A tile in the window is taken if what stands before it is in the row. -/
theorem mem_takeRow (hkeys : ((dest ++ queue).map TileDesc.key).Nodup)
    (hstrict : Strict TileDesc.key queue) (ht : t ∈ queue)
    (hwindow : InWindow prio y leftGridX rightGridX t)
    (hrun : ∀ u ∈ queue, u.key ≤ t.key → allowCombineIfRow prio y u = true) :
    t ∈ (takeRow prio y leftGridX rightGridX queue dest).2 := by
  induction queue generalizing dest with
  | nil => cases ht
  | cons tile rest ih =>
      obtain ⟨hfirst, hrest⟩ := List.pairwise_cons.mp hstrict
      have hle : tile.key ≤ t.key := by
        rcases List.mem_cons.mp ht with rfl | ht
        · exact le_refl _
        · exact (hfirst t ht).le
      have hrow := hrun tile List.mem_cons_self hle
      have hrun' : ∀ u ∈ rest, u.key ≤ t.key → allowCombineIfRow prio y u = true :=
        fun u hu => hrun u (List.mem_cons_of_mem tile hu)
      simp only [takeRow, hrow, if_true, tileWidth_of_allowCombineIfRow hrow]
      split
      · next hcolumns =>
          rw [allowCombineIfRow, Bool.and_eq_true] at hrow
          have htake := (Moves.take hkeys hrow.2).nodup hkeys
          rcases List.mem_cons.mp ht with rfl | ht
          · exact (takeRow_moves prio y leftGridX rightGridX htake).kept t
              (mem_sortedInsert_self t dest)
          · exact ih htake hrest ht hrun'
      · next hcolumns =>
          have hsub : ((dest ++ rest).map TileDesc.key).Nodup := by
            apply List.Nodup.sublist _ hkeys
            exact ((List.sublist_cons_self tile rest).append_left dest).map _
          rcases List.mem_cons.mp ht with rfl | ht
          · exact absurd hwindow.2 hcolumns
          · exact ih hsub hrest ht hrun'

/-- A row below the last position has no tiles, and the position wrapped has none either. -/
theorem allowCombineIfRow_toInt32 (ht : Queued t) (hlo : -2 ^ 31 ≤ y) (hhi : y < 2 ^ 32) :
    allowCombineIfRow prio (toInt32 y) t = allowCombineIfRow prio y t := by
  have hlow := ht.wellFormed.valid
  have hhigh := ht.wellFormed.tilePosY.2
  simp only [TileDesc.isValid, Bool.and_eq_true, decide_eq_true_eq] at hlow
  have hiff : toInt32 y = t.tilePosY ↔ y = t.tilePosY := by
    rw [toInt32, Int.bmod_def]
    omega
  simp only [allowCombineIfRow, Bool.beq_eq_decide_eq, hiff]

/-- What a pass over a neighbouring row takes. -/
theorem mem_combineVerticalTiles {vertDirection : Int} (hprio : Queued prio)
    (hheight : IsInt32 prio.tileHeight) (hid : prio.id < 0) (hsorted : Sorted queue)
    (hkeys : ((dest ++ queue).map TileDesc.key).Nodup) (hlo : 0 ≤ leftGridX)
    (hhi : leftGridX * prio.tileWidth ≤ intMax)
    (hdirection : vertDirection = -1 ∨ vertDirection = 1) :
    t ∈ (combineVerticalTiles queue dest prio leftGridX rightGridX vertDirection).2 ↔
      t ∈ dest ∨ t ∈ queue ∧
        InWindow prio (prio.tilePosY + prio.tileHeight * vertDirection) leftGridX rightGridX t := by
  have hw := hprio.valid.2.2
  have hx : toInt32 (leftGridX * prio.tileWidth) = leftGridX * prio.tileWidth := by
    apply toInt32_of_isInt32
    have hpos := Int.mul_nonneg hlo hw.le
    simp only [IsInt32, intMax] at hhi ⊢
    omega
  have hrows {u : TileDesc} (hu : Queued u) :
      allowCombineIfRow prio (toInt32 (prio.tilePosY + prio.tileHeight * vertDirection)) u =
        allowCombineIfRow prio (prio.tilePosY + prio.tileHeight * vertDirection) u := by
    have hvalid := hprio.wellFormed.valid
    have hy := hprio.wellFormed.tilePosY.2
    have hheight := hheight.2
    simp only [TileDesc.isValid, Bool.and_eq_true, decide_eq_true_eq] at hvalid
    apply allowCombineIfRow_toInt32 hu
    · rcases hdirection with rfl | rfl <;> omega
    · rcases hdirection with rfl | rfl <;> omega
  simp only [combineVerticalTiles, hx]
  generalize hat : toInt32 (prio.tilePosY + prio.tileHeight * vertDirection) = tilePosY at hrows ⊢
  generalize hanchor : prio.keyAt (leftGridX * prio.tileWidth) tilePosY = anchor
  have hsplit := before_append_atLeast TileDesc.key anchor queue
  have hsub : (atLeast TileDesc.key anchor queue).Sublist queue := List.dropWhile_sublist _
  have hstrict := hsorted.strict.sublist hsub
  constructor
  · intro h
    rcases mem_of_mem_takeRow h with hdest | ⟨hmem, hrow, hcolumns⟩
    · exact Or.inl hdest
    · have hqueue := hsub.subset hmem
      rw [hrows (hsorted.queued t hqueue)] at hrow
      exact Or.inr ⟨hqueue, hrow, hcolumns⟩
  · have hrest : ((dest ++ atLeast TileDesc.key anchor queue).map TileDesc.key).Nodup :=
      List.Nodup.sublist ((hsub.append_left dest).map _) hkeys
    rintro (hdest | ⟨hmem, hrow, hcolumns⟩)
    · exact (takeRow_moves prio tilePosY leftGridX rightGridX hrest).kept t hdest
    · have ht := hsorted.queued t hmem
      rw [← hrows ht] at hrow
      have hkey := key_of_allowCombineIfRow hprio ht hrow
      have hle : leftGridX * prio.tileWidth ≤ t.tilePosX := by
        have hfloor := (Int.le_ediv_iff_mul_le hw).mp hcolumns.1
        exact hfloor
      have hin : t ∈ atLeast TileDesc.key anchor queue := by
        rw [← hsplit, List.mem_append] at hmem
        apply hmem.resolve_left
        intro hbefore
        have hlt := lt_of_mem_before hbefore
        rw [hkey, ← hanchor] at hlt
        exact absurd (keyAt_lt hlt) (not_lt.mpr hle)
      apply mem_takeRow hrest hstrict hin ⟨hrow, hcolumns⟩
      intro u hu hule
      have hge := hsorted.strict.le_of_mem_atLeast hu
      rw [← hanchor] at hge
      rw [hkey] at hule
      exact allowCombineIfRow_of_between hid hge hule

/-- What the passes over both neighbouring rows take. -/
theorem mem_combineVerticalTiles_both (hprio : Queued prio) (hheight : IsInt32 prio.tileHeight)
    (hid : prio.id < 0) (hsorted : Sorted queue)
    (hkeys : ((dest ++ queue).map TileDesc.key).Nodup) (hlo : 0 ≤ leftGridX)
    (hhi : leftGridX * prio.tileWidth ≤ intMax) :
    let above := combineVerticalTiles queue dest prio leftGridX rightGridX (-1)
    t ∈ (combineVerticalTiles above.1 above.2 prio leftGridX rightGridX 1).2 ↔
      t ∈ dest ∨ t ∈ queue ∧
        (InWindow prio (prio.tilePosY - prio.tileHeight) leftGridX rightGridX t ∨
          InWindow prio (prio.tilePosY + prio.tileHeight) leftGridX rightGridX t) := by
  intro above
  have hmoves : Moves prio queue dest above.1 above.2 :=
    combineVerticalTiles_moves prio leftGridX rightGridX (-1) hkeys
  have habove : t ∈ above.2 ↔ _ := mem_combineVerticalTiles hprio hheight hid hsorted hkeys hlo hhi
    (Or.inl rfl)
  have hbelow : t ∈ (combineVerticalTiles above.1 above.2 prio leftGridX rightGridX 1).2 ↔ _ :=
    mem_combineVerticalTiles hprio hheight hid (hsorted.sublist hmoves.sublist) (hmoves.nodup hkeys)
      hlo hhi (Or.inr rfl)
  rw [hbelow, Int.mul_one]
  rw [Int.mul_neg, Int.mul_one, ← Int.sub_eq_add_neg] at habove
  have hboth : t ∈ dest ∨ t ∈ queue ↔ t ∈ above.2 ∨ t ∈ above.1 := by
    have hmem := hmoves.perm.mem_iff (a := t)
    rwa [List.mem_append, List.mem_append] at hmem
  constructor
  · rintro (hfirst | ⟨hmem, hwindow⟩)
    · exact (habove.mp hfirst).imp_right (And.imp_right Or.inl)
    · exact Or.inr ⟨hmoves.sublist.subset hmem, Or.inr hwindow⟩
  · rintro (hdest | ⟨hmem, hwindow | hwindow⟩)
    · exact Or.inl (habove.mpr (Or.inl hdest))
    · exact Or.inl (habove.mpr (Or.inr ⟨hmem, hwindow⟩))
    · exact (hboth.mp (Or.inr hmem)).imp_right fun hrest => ⟨hrest, hwindow⟩

end Vertical

/-! ## The window of a combined tile -/

section Window

variable {p : Prioritized} {t : TileDesc}

theorem expandSpan_eq {leftGridX rightGridX : Int} (hlo : 0 ≤ leftGridX)
    (hle : leftGridX ≤ rightGridX) (hspan : rightGridX - leftGridX < maxCombinedGridSpan) :
    ∃ leftmost, expandSpan leftGridX rightGridX =
        (leftmost, toInt32 (leftmost + maxCombinedGridSpan)) ∧
      0 ≤ leftmost ∧ leftmost ≤ leftGridX ∧ rightGridX < leftmost + maxCombinedGridSpan := by
  refine ⟨leftGridX - min leftGridX ((maxCombinedGridSpan - (rightGridX - leftGridX)) / 2), ?_, ?_⟩
  · have hright : rightGridX + (maxCombinedGridSpan - (rightGridX - leftGridX) -
        min leftGridX ((maxCombinedGridSpan - (rightGridX - leftGridX)) / 2)) =
        leftGridX - min leftGridX ((maxCombinedGridSpan - (rightGridX - leftGridX)) / 2) +
          maxCombinedGridSpan := by omega
    simp only [expandSpan, if_pos hspan, hright]
  · simp only [maxCombinedGridSpan] at hspan ⊢
    omega

theorem Prioritized.mem_neighbours : t ∈ p.neighbours ↔ t ∈ p.queue ∧
    (allowCombineIfRow p.tile (p.tile.tilePosY - p.tile.tileHeight) t = true ∨
      allowCombineIfRow p.tile (p.tile.tilePosY + p.tile.tileHeight) t = true) := by
  rw [neighbours, List.mem_append, mem_rowAt, mem_rowAt, ← and_or_left]

/-- A tile of a neighbouring row is in neither of the other two rows. -/
theorem not_mem_row_of_neighbour (hprio : Queued p.tile) (ht : t ∈ p.neighbours) :
    t ∉ p.row := by
  have hvalid := hprio.wellFormed.valid
  simp only [TileDesc.isValid, Bool.and_eq_true, decide_eq_true_eq] at hvalid
  intro hrow
  have hy := (allowCombineIfRow_iff.mp (Prioritized.mem_rowAt.mp hrow).2).1
  rcases (Prioritized.mem_neighbours.mp ht).2 with hrow' | hrow'
  · have hy' := (allowCombineIfRow_iff.mp hrow').1
    omega
  · have hy' := (allowCombineIfRow_iff.mp hrow').1
    omega

/-- The columns that the pass over the row takes. -/
theorem reached_columns (hsorted : Sorted p.queue) (hover : overruns p = false)
    (hid : p.tile.id < 0) :
    0 ≤ p.leftColumn ∧ p.rightColumn - p.leftColumn < maxCombinedGridSpan ∧
      (∃ t ∈ p.reached, p.column t = p.leftColumn) ∧ p.leftColumn ≤ p.column p.tile ∧
      ∀ t ∈ p.reached, p.leftColumn ≤ p.column t ∧ p.column t ≤ p.rightColumn := by
  obtain ⟨s, taken, -, hreaching, hmem, hleft, hright⟩ := combineHoriAround_spec hsorted hover hid
  rw [← hleft, ← hright]
  obtain ⟨first, hfirst, heq⟩ := hreaching.leftmost
  refine ⟨?_, hreaching.span, ⟨first, (hmem first).mp hfirst, heq⟩,
    hreaching.scanned.leftGridX _ hreaching.scanned.prio, fun t ht => ?_⟩
  · rw [← heq]
    exact (Prioritized.column_bounds hsorted
      (hreaching.scanned.mem_queue.mpr (Or.inr (Or.inl hfirst)))).1
  · have htaken := (hmem t).mpr ht
    exact ⟨hreaching.scanned.leftGridX t htaken, hreaching.columns t htaken⟩

/-- The tiles of a combined tile: those in reach, and those of the neighbouring rows in the window
around these. -/
theorem mem_combineTiles (hsorted : Sorted p.queue) (hheight : IsInt32 p.tile.tileHeight)
    (hover : overruns p = false) (hid : p.tile.id < 0) :
    ∃ tiles left, combineTiles p = some (tiles, left) ∧
      ∀ t, t ∈ tiles ↔ t ∈ p.reached ∨ t ∈ p.neighbours ∧
        (expandSpan p.leftColumn p.rightColumn).1 ≤ p.column t ∧
        p.column t ≤ (expandSpan p.leftColumn p.rightColumn).2 := by
  have hprio := hsorted.queued _ p.tile_mem
  have hw := hprio.valid.2.2
  obtain ⟨hlo, hspan, -, hself, hcolumns⟩ := reached_columns hsorted hover hid
  obtain ⟨s, taken, hhori, hreaching, hmem, hleft, hright⟩ :=
    combineHoriAround_spec hsorted hover hid
  have hle : p.leftColumn ≤ p.rightColumn := by
    have hbounds := hcolumns p.tile ((hmem p.tile).mp hreaching.scanned.prio)
    omega
  obtain ⟨leftmost, hexpand, hleftmost, hinside, -⟩ := expandSpan_eq hlo hle hspan
  have hwidth : leftmost * p.tile.tileWidth ≤ intMax := by
    have hfloor : leftmost * p.tile.tileWidth ≤ p.tile.tilePosX :=
      (Int.le_ediv_iff_mul_le hw).mp (hinside.trans hself)
    exact hfloor.trans hprio.valid.2.1
  have hrest := hsorted.sublist hreaching.scanned.sublist_rest
  have hkeys := hreaching.scanned.nodup_split hsorted
  have hpreview : p.tile.isPreview = false := by simpa [TileDesc.isPreview] using hid
  generalize hrightmost : toInt32 (leftmost + maxCombinedGridSpan) = rightmost at hexpand
  let above := combineVerticalTiles (s.left.reverse ++ s.right) s.destTiles p.tile leftmost rightmost
    (-1)
  let both := combineVerticalTiles above.1 above.2 p.tile leftmost rightmost 1
  have heq : combineTiles p = some (both.2, both.1) := by
    simp only [combineTiles, hpreview, Bool.false_eq_true, if_false, hhori, Option.map_some, hleft,
      hright, hexpand]
    rfl
  rw [hexpand]
  refine ⟨both.2, both.1, heq, fun t => ?_⟩
  have hboth : t ∈ both.2 ↔ _ :=
    mem_combineVerticalTiles_both hprio hheight hid hrest hkeys hleftmost hwidth
  rw [hboth, hreaching.scanned.perm.mem_iff, hmem]
  have hneighbour : t ∈ p.neighbours ↔ t ∈ s.left.reverse ++ s.right ∧
      (allowCombineIfRow p.tile (p.tile.tilePosY - p.tile.tileHeight) t = true ∨
        allowCombineIfRow p.tile (p.tile.tilePosY + p.tile.tileHeight) t = true) := by
    constructor
    · intro ht
      obtain ⟨hqueue, hrow⟩ := Prioritized.mem_neighbours.mp ht
      refine ⟨?_, hrow⟩
      rcases hreaching.scanned.mem_queue.mp hqueue with hside | htaken | hside
      · simp [hside]
      · exact absurd (hreaching.scanned.mem_row hid htaken) (not_mem_row_of_neighbour hprio ht)
      · simp [hside]
    · rintro ⟨ht, hrow⟩
      exact Prioritized.mem_neighbours.mpr ⟨hreaching.scanned.sublist_rest.subset ht, hrow⟩
  rw [hneighbour, InWindow, InWindow, ← or_and_right, ← and_assoc]
  rfl

/-- The tiles span too many columns just when both outermost columns that are looked at have some
to take. -/
theorem width_iff (hsorted : Sorted p.queue) (hover : overruns p = false)
    (hid : p.tile.id < 0) {tiles : List TileDesc}
    (htiles : ∀ t, t ∈ tiles ↔ t ∈ p.reached ∨ t ∈ p.neighbours ∧
      (expandSpan p.leftColumn p.rightColumn).1 ≤ p.column t ∧
      p.column t ≤ (expandSpan p.leftColumn p.rightColumn).2) :
    (∀ a ∈ tiles, ∀ b ∈ tiles, p.column a - p.column b < maxCombinedGridSpan) ↔
      p.isTooWide = false := by
  obtain ⟨hlo, hspan, ⟨first, hfirst, hleft⟩, hself, hcolumns⟩ :=
    reached_columns hsorted hover hid
  have hle : p.leftColumn ≤ p.rightColumn := by
    have hbounds := hcolumns first hfirst
    omega
  have hprio := Prioritized.column_bounds hsorted p.tile_mem
  obtain ⟨leftmost, hexpand, hleftmost, hinside, hright⟩ := expandSpan_eq hlo hle hspan
  have hneighbour : ∀ t ∈ p.neighbours, 0 ≤ p.column t ∧ p.column t ≤ intMax := fun t ht =>
    Prioritized.column_bounds hsorted (Prioritized.mem_neighbours.mp ht).1
  have hwrapped : toInt32 (leftmost + maxCombinedGridSpan) ≤ leftmost + maxCombinedGridSpan := by
    rw [toInt32, Int.bmod_def]
    simp only [maxCombinedGridSpan]
    omega
  rw [hexpand] at htiles
  have hwide : p.isTooWide = true ↔
      (∃ a ∈ p.neighbours, p.column a = leftmost + maxCombinedGridSpan) ∧
        ((∃ b ∈ p.neighbours, p.column b = leftmost) ∨ p.leftColumn = leftmost) := by
    simp only [Prioritized.isTooWide, hexpand, Bool.and_eq_true, Bool.or_eq_true, List.any_eq_true,
      beq_iff_eq]
  constructor
  · intro hwidth
    rw [← Bool.not_eq_true, hwide]
    rintro ⟨⟨a, ha, hcolumn⟩, hoccupied⟩
    have hfits : toInt32 (leftmost + maxCombinedGridSpan) = leftmost + maxCombinedGridSpan := by
      apply toInt32_of_isInt32
      have hbounds := hneighbour a ha
      simp only [IsInt32, intMax] at hbounds ⊢
      omega
    have hspans : (0 : Int) ≤ maxCombinedGridSpan := by decide
    have hmem : a ∈ tiles := by
      rw [htiles a, hfits]
      exact Or.inr ⟨ha, by omega, hcolumn.le⟩
    obtain ⟨b, hb, hcolumn'⟩ : ∃ b ∈ tiles, p.column b = leftmost := by
      rcases hoccupied with ⟨b, hb, hcolumn'⟩ | heq
      · refine ⟨b, (htiles b).mpr (Or.inr ⟨hb, hcolumn'.ge, ?_⟩), hcolumn'⟩
        rw [hfits]
        omega
      · exact ⟨first, (htiles first).mpr (Or.inl hfirst), hleft.trans heq⟩
    have hlt := hwidth a hmem b hb
    omega
  · intro hnarrow a ha b hb
    by_contra hfar
    rw [← Bool.not_eq_true, hwide] at hnarrow
    apply hnarrow
    have hlow : leftmost ≤ p.column b ∧ (p.column b = leftmost →
        (∃ b ∈ p.neighbours, p.column b = leftmost) ∨ p.leftColumn = leftmost) := by
      rcases (htiles b).mp hb with hreached | ⟨hmem, hge, -⟩
      · have hbounds := hcolumns b hreached
        refine ⟨hinside.trans hbounds.1, fun heq => Or.inr ?_⟩
        omega
      · exact ⟨hge, fun heq => Or.inl ⟨b, hmem, heq⟩⟩
    rcases (htiles a).mp ha with hreached | ⟨hmem, -, hupper⟩
    · have hbounds := hcolumns a hreached
      omega
    · have hupper' := hupper.trans hwrapped
      exact ⟨⟨a, hmem, by omega⟩, hlow.2 (by omega)⟩

end Window

/-! ## Overruns -/

section Overrun

variable {p : Prioritized} {s : HoriScan} {t u : TileDesc}

theorem horiMove_overrun (hl : p.candidate s.left = some t) (hr : p.candidate s.right = none)
    (hfar : intMax ≤ p.column p.tile - p.column t)
    (hspan : s.rightGridX - s.leftGridX < maxCombinedGridSpan) :
    horiMove p.tile s = .takeRight s.rightGridX := by
  simp only [Prioritized.candidate, Prioritized.column] at hl hr hfar
  simp only [horiMove, hl, hr, Option.map_some, Option.getD_some, Option.isNone_some,
    Option.map_none, Option.getD_none, Bool.false_eq_true, false_and, if_false]
  rw [if_neg (not_lt.mpr hfar)]
  exact if_neg (not_le.mpr hspan)

/-- A scan that has come to a tile in the first column while the prioritized tile is in the last
one: what is left of it are ends of the two sides. -/
structure Overrunning (p : Prioritized) (s : HoriScan) : Prop where
  left : s.left <:+ p.before.reverse
  right : s.right <:+ p.after
  rightGridX : s.rightGridX = intMax
  leftGridX : intMax - s.leftGridX < maxCombinedGridSpan
  first : ∃ t ∈ s.left, t ∈ p.row ∧ p.column t = 0

theorem before_lt (hsorted : Sorted p.queue) (ht : t ∈ p.before) : t.key < p.tile.key := by
  have hstrict := hsorted.strict
  rw [Prioritized.queue, Strict, List.pairwise_append] at hstrict
  exact hstrict.2.2 t ht p.tile List.mem_cons_self

theorem lt_after (hsorted : Sorted p.queue) (ht : t ∈ p.after) : p.tile.key < t.key := by
  have hstrict := hsorted.strict
  rw [Prioritized.queue, Strict, List.pairwise_append, List.pairwise_cons] at hstrict
  exact hstrict.2.1.1 t ht

/-- Right of the last position there is no tile. -/
theorem Overrunning.candidate_right (hsorted : Sorted p.queue)
    (hcolumn : p.column p.tile = intMax) (h : Overrunning p s) : p.candidate s.right = none := by
  have hprio := hsorted.queued _ p.tile_mem
  cases hcandidate : p.candidate s.right with
  | none => rfl
  | some t =>
      obtain ⟨hhead, hrow⟩ := Option.filter_eq_some_iff.mp hcandidate
      have hafter : t ∈ p.after := h.right.subset (List.mem_of_mem_head? hhead)
      have hmem : t ∈ p.queue := by simp [Prioritized.queue, hafter]
      have hlt := InRow.tilePosX_lt hprio hprio (hsorted.queued t hmem) (Or.inl rfl) (Or.inr hrow)
        (lt_after hsorted hafter)
      have hle : p.column p.tile ≤ p.tile.tilePosX := Int.ediv_le_self _ hprio.valid.1
      have hbound := (hsorted.queued t hmem).valid.2.1
      omega

theorem Overrunning.candidate_left (hsorted : Sorted p.queue) (hid : p.tile.id < 0)
    (h : Overrunning p s) :
    ∃ t left, s.left = t :: left ∧ p.candidate s.left = some t ∧ t ∈ p.row := by
  obtain ⟨u, hu, hurow, -⟩ := h.first
  obtain ⟨t, left, hcons⟩ := List.exists_cons_of_ne_nil (List.ne_nil_of_mem hu)
  have hbefore : ∀ v ∈ s.left, v ∈ p.before := fun v hv => by simpa using h.left.subset hv
  have hin : t ∈ s.left := by simp [hcons]
  have hrow : t ∈ p.row := by
    rw [hcons] at hu
    rcases List.mem_cons.mp hu with rfl | hu
    · exact hurow
    · have hstrict := hsorted.strict
      rw [Prioritized.queue, Strict, List.pairwise_append] at hstrict
      have hpairs : p.before.reverse.Pairwise fun a b => b.key < a.key :=
        List.pairwise_reverse.mpr hstrict.1
      have hlt := hpairs.sublist h.left.sublist
      rw [hcons, List.pairwise_cons] at hlt
      apply Prioritized.mem_row_of_between hsorted hurow _ (Prioritized.tile_mem_row hid)
        (hlt.1 u hu) (before_lt hsorted (hbefore t hin))
      simp [Prioritized.queue, hbefore t hin]
  exact ⟨t, left, hcons, by rw [hcons, Prioritized.candidate_cons hrow], hrow⟩

/-- Then the scan runs over the end of the queue. -/
theorem horiScan_overrun (hsorted : Sorted p.queue) (hid : p.tile.id < 0)
    (hcolumn : p.column p.tile = intMax)
    (hall : ∀ t ∈ p.row, p.column t = 0 ∨ intMax - p.column t < maxCombinedGridSpan)
    (rounds : Nat) (hrounds : s.left.length + s.right.length ≤ rounds) (h : Overrunning p s) :
    horiScan p.tile rounds s = none := by
  induction rounds generalizing s with
  | zero =>
      obtain ⟨t, ht, -, -⟩ := h.first
      have hpos := List.length_pos_of_mem ht
      omega
  | succ rounds ih =>
      have hr := h.candidate_right hsorted hcolumn
      obtain ⟨t, left, hcons, hl, hrow⟩ := h.candidate_left hsorted hid
      have hspan : s.rightGridX - s.leftGridX < maxCombinedGridSpan := by
        rw [h.rightGridX]
        exact h.leftGridX
      by_cases hzero : p.column t = 0
      · have hmove := horiMove_overrun hl hr (by omega) hspan
        cases hright : s.right with
        | nil => simp only [horiScan, hmove, hright]
        | cons tile right =>
            simp only [horiScan, hmove, hright]
            apply ih
            · rw [hright, List.length_cons] at hrounds
              change s.left.length + right.length ≤ rounds
              omega
            · refine ⟨h.left, ?_, h.rightGridX, h.leftGridX, h.first⟩
              apply List.IsSuffix.trans _ h.right
              rw [hright]
              exact List.suffix_cons tile right
      · have hnear := (hall t hrow).resolve_left hzero
        have hbounds := Prioritized.column_bounds hsorted (Prioritized.mem_rowAt.mp hrow).1
        have hmove := horiMove_left hl (fun u hu => by rw [hr] at hu; cases hu) (by omega)
        rw [h.rightGridX, if_neg (not_le.mpr hnear)] at hmove
        simp only [horiScan, hmove, hcons]
        apply ih
        · rw [hcons, List.length_cons] at hrounds
          change left.length + s.right.length ≤ rounds
          omega
        · refine ⟨?_, h.right, h.rightGridX, hnear, ?_⟩
          · apply List.IsSuffix.trans _ h.left
            rw [hcons]
            exact List.suffix_cons t left
          · obtain ⟨u, hu, hurow, hucolumn⟩ := h.first
            rw [hcons] at hu
            refine ⟨u, (List.mem_cons.mp hu).resolve_left ?_, hurow, hucolumn⟩
            rintro rfl
            exact hzero hucolumn

theorem combineTiles_overrun (hsorted : Sorted p.queue) (hover : overruns p = true) :
    combineTiles p = none := by
  simp only [overruns, Bool.and_eq_true, beq_iff_eq, List.any_eq_true, List.all_eq_true,
    Bool.or_eq_true, Bool.not_eq_true', decide_eq_true_eq] at hover
  obtain ⟨⟨hcolumn, t, ht, hrow, hzero⟩, hall⟩ := hover
  have hid := (allowCombineIfRow_iff.mp hrow).2.1
  have hprio := hsorted.queued _ p.tile_mem
  have hpreview : p.tile.isPreview = false := by simpa [TileDesc.isPreview] using hid
  have hbefore : t ∈ p.before := by
    have hle : p.column p.tile ≤ p.tile.tilePosX := Int.ediv_le_self _ hprio.valid.1
    have hmem : t ∈ p.before ∨ t = p.tile ∨ t ∈ p.after := by simpa [Prioritized.queue] using ht
    rcases hmem with hmem | rfl | hmem
    · exact hmem
    · rw [hcolumn] at hzero
      exact absurd hzero (by decide)
    · have hlt := InRow.tilePosX_lt hprio hprio (hsorted.queued t ht) (Or.inl rfl) (Or.inr hrow)
        (lt_after hsorted hmem)
      have hbound := (hsorted.queued t ht).valid.2.1
      change p.column p.tile = intMax at hcolumn
      omega
  have hscan : combineHoriAround p.tile p.before p.after = none := by
    apply horiScan_overrun hsorted hid hcolumn
    · intro u hu
      obtain ⟨huq, hurow⟩ := Prioritized.mem_rowAt.mp hu
      rcases hall u huq with (hout | hfirst) | hnear
      · rw [hurow] at hout
        cases hout
      · exact Or.inl hfirst
      · exact Or.inr hnear
    · simp
    · refine ⟨List.suffix_refl _, List.suffix_refl _, hcolumn, ?_, t, by simpa using hbefore,
        Prioritized.mem_rowAt.mpr ⟨ht, hrow⟩, hzero⟩
      change intMax - p.column p.tile < maxCombinedGridSpan
      rw [show p.column p.tile = intMax from hcolumn, Int.sub_self]
      decide
  simp only [combineTiles, hpreview, Bool.false_eq_true, if_false, hscan, Option.map_none]

end Overrun

/-! ## The width of what is popped -/

section Width

variable {getTilePriority : TileDesc → Int} {tileQueue : List TileDesc} {p : Prioritized}

theorem sameTileCombineParams_width {a b : TileDesc} (h : a.sameTileCombineParams b = true) :
    b.tileWidth = a.tileWidth := by
  simp only [sameTileCombineParams, Bool.and_eq_true, beq_iff_eq] at h
  omega

/-- The combined tile stands in the columns of the tiles it is made of. -/
theorem Conserves.columns {tiles left : List TileDesc} {combined : TileCombined}
    (h : Conserves getTilePriority tileQueue tiles left combined) (hprio : p.tile ∈ tiles) :
    combined.tiles.map (fun t => gridX t t.tileWidth) = tiles.map p.column := by
  obtain ⟨prio, -, -, hsame, hsame'⟩ := h.shared
  have hwidth := sameTileCombineParams_width (hsame p.tile hprio)
  have hcombined : combined.tiles.map (fun t => gridX t t.tileWidth) =
      (combined.tiles.map place).map fun t => t.1 / p.tile.tileWidth := by
    rw [List.map_map]
    apply List.map_congr_left
    intro t ht
    rw [gridX, sameTileCombineParams_width (hsame' t ht), hwidth]
    rfl
  rw [hcombined, h.places, List.map_map]
  rfl

/-- A preview is popped alone. -/
theorem isTooWide_of_preview (hpreview : p.tile.isPreview = true) : p.isTooWide = false := by
  have hnone : p.neighbours = [] := by
    apply List.eq_nil_iff_forall_not_mem.mpr
    intro t ht
    have hid : ¬ p.tile.id < 0 := by simpa [TileDesc.isPreview] using hpreview
    rcases (Prioritized.mem_neighbours.mp ht).2 with hrow | hrow
    · exact hid (allowCombineIfRow_iff.mp hrow).2.1
    · exact hid (allowCombineIfRow_iff.mp hrow).2.1
  simp [Prioritized.isTooWide, hnone]

/-- The tiles popped together keep to the span unless both outermost of the columns looked at have
tiles. -/
theorem combineTiles_width (hsorted : Sorted p.queue) (hheight : IsInt32 p.tile.tileHeight)
    (hover : overruns p = false) :
    ∃ tiles left, combineTiles p = some (tiles, left) ∧ Splits p tiles left ∧
      ((∀ a ∈ tiles, ∀ b ∈ tiles, p.column a - p.column b < maxCombinedGridSpan) ↔
        p.isTooWide = false) := by
  obtain ⟨tiles, left, htiles, hsplits⟩ := combineTiles_spec hsorted hover
  refine ⟨tiles, left, htiles, hsplits, ?_⟩
  cases hpreview : p.tile.isPreview with
  | true =>
      rw [combineTiles, if_pos hpreview] at htiles
      cases htiles
      refine iff_of_true (fun a ha b hb => ?_) (isTooWide_of_preview hpreview)
      rw [List.mem_singleton.mp ha, List.mem_singleton.mp hb, Int.sub_self]
      decide
  | false =>
      have hid : p.tile.id < 0 := by simpa [TileDesc.isPreview] using hpreview
      obtain ⟨tiles', left', htiles', hmem⟩ := mem_combineTiles hsorted hheight hover hid
      rw [htiles] at htiles'
      cases htiles'
      exact width_iff hsorted hover hid hmem

/-- A combined tile keeps to the span just when the pop does not run over an end of the queue and
the outermost columns looked at do not both have tiles to take. -/
theorem withinSpan_iff (hne : tileQueue ≠ []) (hsorted : Sorted tileQueue)
    (hheight : ∀ t ∈ tileQueue, IsInt32 t.tileHeight) :
    WithinSpan getTilePriority tileQueue ↔
      (prioritized getTilePriority tileQueue).any (fun p => !overruns p && !p.isTooWide) = true := by
  obtain ⟨p, hp, rfl, hhighest⟩ := prioritized_spec getTilePriority hne
  rw [hp, Option.any_some]
  cases hover : overruns p with
  | true =>
      simp only [Bool.not_true, Bool.false_and, Bool.false_eq_true, iff_false]
      rintro ⟨popped, hpopped, -⟩
      simp [popTileQueue, hp, combineTiles_overrun hsorted hover] at hpopped
  | false =>
      obtain ⟨tiles, left, htiles, hsplits, hwidth⟩ :=
        combineTiles_width hsorted (hheight _ p.tile_mem) hover
      obtain ⟨combined, hcombined, hconserves⟩ := combined_of_splits hsorted hsplits hhighest
      have hpop : popTileQueue getTilePriority p.queue = some ⟨combined, p.priority, left⟩ := by
        simp only [popTileQueue, hp, htiles, hcombined, Option.bind_some, Option.map_some]
      have hcolumns := hconserves.columns hsplits.prio
      have hforall : (∀ a ∈ combined.tiles, ∀ b ∈ combined.tiles,
          gridX a a.tileWidth - gridX b b.tileWidth < maxCombinedGridSpan) ↔
          ∀ a ∈ tiles, ∀ b ∈ tiles, p.column a - p.column b < maxCombinedGridSpan := by
        have hall : (∀ x ∈ combined.tiles.map (fun t => gridX t t.tileWidth),
            ∀ y ∈ combined.tiles.map (fun t => gridX t t.tileWidth),
              x - y < maxCombinedGridSpan) ↔
            ∀ x ∈ tiles.map p.column, ∀ y ∈ tiles.map p.column, x - y < maxCombinedGridSpan := by
          rw [hcolumns]
        simpa only [List.forall_mem_map] using hall
      simp only [WithinSpan, hpop, Option.some.injEq, exists_eq_left', Bool.not_false,
        Bool.true_and, Bool.not_eq_true']
      exact hforall.trans hwidth

/-- A row of three tiles, and one tile each in the rows above and below. -/
theorem withinSpan_rows : ∃ queues,
    run (stepIf TileQueues.step TileQueues.inReach) []
      [.pushCombined ("tilecombine nviewid=0 part=0 width=256 height=256 " ++
        "tileposx=150,0,10,20,0 tileposy=0,10,10,10,20 tilewidth=10 tileheight=10").toList] =
        some queues ∧
      ∀ queue ∈ queues, WithinSpan (fun t => t.tilePosX) queue.2 := by
  obtain ⟨queues, hrun, hqueues⟩ := run_reaches (stepIf TileQueues.step TileQueues.inReach) []
    [.pushCombined ("tilecombine nviewid=0 part=0 width=256 height=256 " ++
      "tileposx=150,0,10,20,0 tileposy=0,10,10,10,20 tilewidth=10 tileheight=10").toList]
    (P := fun queues => ∀ queue ∈ queues, queue.2 ≠ [] ∧ (∀ t ∈ queue.2, IsInt32 t.tileHeight) ∧
      (prioritized (fun t => t.tilePosX) queue.2).any (fun p => !overruns p && !p.isTooWide) = true)
    (by decide +kernel)
  refine ⟨queues, hrun, fun queue hqueue => ?_⟩
  obtain ⟨hne, hheight, hwidth⟩ := hqueues queue hqueue
  have hsorted := (TileQueues.run_valid hrun).sorted queue hqueue
  exact (withinSpan_iff hne hsorted hheight).mpr hwidth

/-- A tile in column 8, and in the row below tiles in columns 0 and 16. -/
theorem combined_too_wide : ¬ ∀ (ops : List TileQueues.TileOp) (queues : TileQueues),
    run (stepIf TileQueues.step TileQueues.inReach) [] ops = some queues →
    ∀ (getTilePriority : TileDesc → Int), ∀ queue ∈ queues,
      (∀ t ∈ queue.2, t.tileWidth ∣ t.tilePosX) →
      ∀ popped ∈ popTileQueue getTilePriority queue.2,
        ∀ a ∈ popped.combined.tiles, ∀ b ∈ popped.combined.tiles,
          gridX a a.tileWidth - gridX b b.tileWidth < maxCombinedGridSpan := by
  intro h
  obtain ⟨queues, hrun, queue, hqueue, haligned, hwide⟩ :=
    run_reaches (stepIf TileQueues.step TileQueues.inReach) []
    [.pushCombined ("tilecombine nviewid=0 part=0 width=256 height=256 " ++
      "tileposx=80,0,160 tileposy=0,10,10 tilewidth=10 tileheight=10").toList]
    (P := fun queues => ∃ queue ∈ queues, (∀ t ∈ queue.2, t.tileWidth ∣ t.tilePosX) ∧
      ∃ popped ∈ popTileQueue (fun t => - t.tilePosY) queue.2,
        ∃ a ∈ popped.combined.tiles, ∃ b ∈ popped.combined.tiles,
          ¬ gridX a a.tileWidth - gridX b b.tileWidth < maxCombinedGridSpan)
    (by decide +kernel)
  obtain ⟨popped, hpopped, a, ha, b, hb, hfar⟩ := hwide
  exact hfar (h _ _ hrun _ _ hqueue haligned popped hpopped a ha b hb)

end Width

end CoolOnline.Kit
