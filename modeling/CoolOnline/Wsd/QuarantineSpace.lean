import CoolOnline.Wsd.Quarantine
import Mathlib.Data.UInt

/-! # Space for a quarantined file

The loop of `makeQuarantineSpace` in `wsd/QuarantineUtil.cpp`, which removes versions until the rest
and the incoming file are not larger than the limit. It goes over pointers to the containers of the
documents that have versions, those with the most versions first.
-/

namespace CoolOnline

namespace Quarantine

/-- What the loop has: the size with the incoming file, and the containers. -/
structure Shrinking where
  currentSize : UInt64
  entries : List (List Entry)

def firstTime (container : List Entry) : Nat := (container.head?).elim 0 Entry.secondsSinceEpoch

/-- A document with more versions comes first, then one with an older first version. -/
def Comes (lhs rhs : List Entry) : Prop :=
  rhs.length < lhs.length ∨ lhs.length = rhs.length ∧ firstTime lhs < firstTime rhs

instance (lhs rhs : List Entry) : Decidable (Comes lhs rhs) := inferInstanceAs (Decidable (_ ∨ _))

def orderTopTwo : List (List Entry) → List (List Entry)
  | first :: second :: more =>
      if Comes second first then second :: first :: more else first :: second :: more
  | entries => entries

/-- An empty container is dropped, and the next one is taken to be in its place. -/
def nextContainers (rest : List Entry) (others : List (List Entry)) : List (List Entry) :=
  if rest = [] then others else orderTopTwo (rest :: others)

/-- The reference to the first entry is read after the entry is erased. It then has the entry behind
it, and when there is none it dangles. -/
def readSize (dangling : Entry → UInt64) (entry : Entry) : List Entry → UInt64
  | next :: _ => next.size
  | [] => dangling entry

def versionCount (entries : List (List Entry)) : Nat := (entries.map List.length).sum

theorem versionCount_nextContainers (rest : List Entry) (others : List (List Entry)) :
    versionCount (nextContainers rest others) = rest.length + versionCount others := by
  rw [nextContainers]
  split
  case isTrue h => simp [h]
  case isFalse =>
    cases others with
    | nil => simp [orderTopTwo, versionCount]
    | cons second more =>
        rw [orderTopTwo]
        split
        · simp [versionCount]
          omega
        · simp [versionCount]

/-- The states in which an entry is removed, and the last one. -/
def shrink (dangling : Entry → UInt64) (maxSizeBytes : UInt64) (state : Shrinking) :
    List Shrinking × Shrinking :=
  match _h : state.entries with
  | (entry :: rest) :: others =>
      let currentSize := state.currentSize - readSize dangling entry rest
      if currentSize ≤ maxSizeBytes then ([state], ⟨currentSize, rest :: others⟩)
      else
        let result := shrink dangling maxSizeBytes ⟨currentSize, nextContainers rest others⟩
        (state :: result.1, result.2)
  | _ => ([], state)
termination_by versionCount state.entries
decreasing_by
  rw [versionCount_nextContainers, _h]
  simp [versionCount]

def totalSize (entries : List (List Entry)) : Nat :=
  (entries.flatten.map fun entry => entry.size.toNat).sum

/-- The loop is only reached when the files are too large together. -/
def makeSpace (dangling : Entry → UInt64) (maxSizeBytes : UInt64) (state : Shrinking) :
    List Shrinking × Shrinking :=
  if state.currentSize ≤ maxSizeBytes then ([], state) else shrink dangling maxSizeBytes state

/-! ## What the loop is for -/

variable {dangling : Entry → UInt64} {maxSizeBytes headroomBytes : UInt64} {state : Shrinking}
  {entries others : List (List Entry)} {entry : Entry} {rest : List Entry}

/-- The first container is that of the document to take from. -/
def HeadFirst : List (List Entry) → Prop
  | [] => True
  | first :: others => ∀ other ∈ others, ¬ Comes other first

def CountsRight (headroomBytes : UInt64) (state : Shrinking) : Prop :=
  state.currentSize.toNat = totalSize state.entries + headroomBytes.toNat

/-- What is removed has to be removed, and is the oldest version of the document with the most
versions. -/
structure RemovesRightly (maxSizeBytes headroomBytes : UInt64) (state : Shrinking) : Prop where
  counts : CountsRight headroomBytes state
  needed : maxSizeBytes.toNat < totalSize state.entries + headroomBytes.toNat
  head : HeadFirst state.entries
  oldest : ∃ entry rest others, state.entries = (entry :: rest) :: others ∧
    ∀ other ∈ rest, entry.secondsSinceEpoch ≤ other.secondsSinceEpoch

/-- The loop removes the right versions, and it ends when the rest fits or nothing is left, with the
size of what there is. -/
structure MakesSpace (maxSizeBytes headroomBytes : UInt64)
    (result : List Shrinking × Shrinking) : Prop where
  removes : ∀ state ∈ result.1, RemovesRightly maxSizeBytes headroomBytes state
  counts : CountsRight headroomBytes result.2
  ends : result.2.currentSize ≤ maxSizeBytes ∨ result.2.entries.flatten = []

/-- No container behind the first two comes before both of them. -/
def OrderKept (rest : List Entry) : List (List Entry) → Prop
  | [] => True
  | second :: more => ∀ other ∈ more, ¬ (Comes other second ∧ (rest = [] ∨ Comes other rest))

/-- What is read behind the erased entry is its size, and if that is not enough, the containers are
still in order for the next one. -/
def StepOk (dangling : Entry → UInt64) (maxSizeBytes : UInt64) (state : Shrinking) : Prop :=
  ∀ entry rest others, state.entries = (entry :: rest) :: others →
    readSize dangling entry rest = entry.size ∧
      (maxSizeBytes < state.currentSize - entry.size → OrderKept rest others)

/-! ## One turn -/

theorem totalSize_cons (container : List Entry) (entries : List (List Entry)) :
    totalSize (container :: entries) =
      (container.map fun entry => entry.size.toNat).sum + totalSize entries := by
  simp [totalSize]

theorem totalSize_removed :
    totalSize ((entry :: rest) :: others) = entry.size.toNat + totalSize (rest :: others) := by
  simp [totalSize]

theorem totalSize_nextContainers (rest : List Entry) (others : List (List Entry)) :
    totalSize (nextContainers rest others) = totalSize (rest :: others) := by
  rw [nextContainers]
  split
  case isTrue h => simp [h, totalSize]
  case isFalse =>
    cases others with
    | nil => rfl
    | cons second more =>
        rw [orderTopTwo]
        split
        · simp only [totalSize_cons]
          omega
        · rfl

theorem mem_nextContainers {container : List Entry} :
    container ∈ nextContainers rest others ↔
      container ∈ others ∨ container = rest ∧ rest ≠ [] := by
  rw [nextContainers]
  split
  case isTrue h => simp [h]
  case isFalse h =>
    cases others with
    | nil => simp [orderTopTwo, h]
    | cons second more =>
        rw [orderTopTwo]
        split
        · simp only [List.mem_cons, h, ne_eq, not_false_eq_true, and_true]
          tauto
        · simp only [List.mem_cons, h, ne_eq, not_false_eq_true, and_true]
          tauto

theorem Comes.trans {first second third : List Entry} (h : Comes first second)
    (hnext : Comes second third) : Comes first third := by
  rw [Comes] at h hnext ⊢
  omega

theorem Comes.asymm {first second : List Entry} (h : Comes first second) :
    ¬ Comes second first := by
  rw [Comes] at h ⊢
  omega

/-- What does not come before another one is behind all that does. -/
theorem Comes.of_not {first second third : List Entry} (h : Comes first second)
    (hnot : ¬ Comes third second) : Comes first third := by
  rw [Comes] at h hnot ⊢
  omega

/-- The next container is the right one if and only if none behind the first two comes before
both. -/
theorem headFirst_nextContainers :
    HeadFirst (nextContainers rest others) ↔ OrderKept rest others := by
  rw [nextContainers]
  cases others with
  | nil =>
      refine iff_of_true ?_ trivial
      split
      · trivial
      · simp [orderTopTwo, HeadFirst]
  | cons second more =>
      rw [OrderKept]
      split
      case isTrue hempty =>
        simp only [HeadFirst, hempty, true_or, and_true]
      case isFalse hne =>
        simp only [hne, false_or]
        rw [orderTopTwo]
        split
        case isTrue hsecond =>
          simp only [HeadFirst, List.forall_mem_cons]
          constructor
          · intro h other hother hcomes
            exact h.2 other hother hcomes.1
          · intro h
            exact ⟨hsecond.asymm, fun other hother hcomes =>
              h other hother ⟨hcomes, hcomes.trans hsecond⟩⟩
        case isFalse hsecond =>
          simp only [HeadFirst, List.forall_mem_cons]
          constructor
          · intro h other hother hcomes
            exact h.2 other hother hcomes.2
          · intro h
            exact ⟨hsecond, fun other hother hcomes =>
              h other hother ⟨hcomes.of_not hsecond, hcomes⟩⟩

theorem toNat_sub_size (hcounts : CountsRight headroomBytes state)
    (hentries : state.entries = (entry :: rest) :: others) :
    (state.currentSize - entry.size).toNat = totalSize (rest :: others) + headroomBytes.toNat := by
  have hle : entry.size ≤ state.currentSize := by
    rw [UInt64.le_iff_toNat_le, hcounts, hentries, totalSize_removed]
    omega
  rw [UInt64.toNat_sub_of_le _ _ hle, hcounts, hentries, totalSize_removed]
  omega

/-- The size is right after a turn if and only if the right size was read. -/
theorem sub_readSize_iff (hcounts : CountsRight headroomBytes state)
    (hentries : state.entries = (entry :: rest) :: others) (size : UInt64) :
    (state.currentSize - size).toNat = totalSize (rest :: others) + headroomBytes.toNat ↔
      size = entry.size := by
  constructor
  · intro h
    rw [← toNat_sub_size hcounts hentries] at h
    have heq := UInt64.toNat_inj.mp h
    have hcancel := congrArg (state.currentSize - ·) heq
    simpa using hcancel
  · intro h
    rw [h, toNat_sub_size hcounts hentries]

/-! ## The loop -/

/-- The containers of the documents have versions, sorted by age. -/
def Filled (entries : List (List Entry)) : Prop :=
  ∀ container ∈ entries, container ≠ [] ∧ Sorted container

theorem Filled.next (h : Filled ((entry :: rest) :: others)) :
    Filled (nextContainers rest others) := by
  intro container hmem
  rcases mem_nextContainers.mp hmem with hother | ⟨rfl, hne⟩
  · exact h container (List.mem_cons_of_mem _ hother)
  · exact ⟨hne, (List.pairwise_cons.mp (h _ List.mem_cons_self).2).2⟩

theorem shrink_nil (hentries : state.entries = []) :
    shrink dangling maxSizeBytes state = ([], state) := by
  rw [shrink]
  split
  case h_1 hcons =>
    rw [hentries] at hcons
    cases hcons
  case h_2 => rfl

theorem shrink_of_fits (hentries : state.entries = (entry :: rest) :: others)
    (hfits : state.currentSize - readSize dangling entry rest ≤ maxSizeBytes) :
    shrink dangling maxSizeBytes state =
      ([state], ⟨state.currentSize - readSize dangling entry rest, rest :: others⟩) := by
  rcases state with ⟨currentSize, entries⟩
  cases hentries
  rw [shrink]
  exact if_pos hfits

/-- The state that the loop goes on with. -/
def nextState (dangling : Entry → UInt64) (state : Shrinking) (entry : Entry) (rest : List Entry)
    (others : List (List Entry)) : Shrinking :=
  ⟨state.currentSize - readSize dangling entry rest, nextContainers rest others⟩

theorem shrink_of_not_fits (hentries : state.entries = (entry :: rest) :: others)
    (hfits : ¬ state.currentSize - readSize dangling entry rest ≤ maxSizeBytes) :
    shrink dangling maxSizeBytes state =
      (state :: (shrink dangling maxSizeBytes (nextState dangling state entry rest others)).1,
        (shrink dangling maxSizeBytes (nextState dangling state entry rest others)).2) := by
  rcases state with ⟨currentSize, entries⟩
  cases hentries
  rw [shrink]
  exact if_neg hfits

/-- The loop begins with the state that it is given, if there is something to remove. -/
theorem mem_shrink (hentries : state.entries = (entry :: rest) :: others) :
    state ∈ (shrink dangling maxSizeBytes state).1 := by
  by_cases hfits : state.currentSize - readSize dangling entry rest ≤ maxSizeBytes
  · rw [shrink_of_fits hentries hfits]
    exact List.mem_singleton_self _
  · rw [shrink_of_not_fits hentries hfits]
    exact List.mem_cons_self

/-- A wrong size or order is found in the first state or the last. -/
theorem state_of_makesSpace (hfilled : Filled state.entries)
    (h : MakesSpace maxSizeBytes headroomBytes (shrink dangling maxSizeBytes state)) :
    CountsRight headroomBytes state ∧ HeadFirst state.entries := by
  cases hentries : state.entries with
  | nil =>
      have hcounts := h.counts
      rw [shrink_nil hentries] at hcounts
      exact ⟨hcounts, trivial⟩
  | cons container others =>
      cases container with
      | nil =>
          rw [hentries] at hfilled
          exact absurd rfl (hfilled [] List.mem_cons_self).1
      | cons entry rest =>
          have hright := h.removes _ (mem_shrink hentries)
          have hhead := hright.head
          rw [hentries] at hhead
          exact ⟨hright.counts, hhead⟩

theorem removesRightly (hentries : state.entries = (entry :: rest) :: others)
    (hfilled : Filled state.entries) (hcounts : CountsRight headroomBytes state)
    (hhead : HeadFirst state.entries) (hneeded : ¬ state.currentSize ≤ maxSizeBytes) :
    RemovesRightly maxSizeBytes headroomBytes state := by
  refine ⟨hcounts, ?_, hhead, entry, rest, others, hentries, ?_⟩
  · rw [← hcounts]
    exact Nat.lt_of_not_le hneeded
  · rw [hentries] at hfilled
    exact (List.pairwise_cons.mp (hfilled _ List.mem_cons_self).2).1

theorem stepOk_iff (dangling : Entry → UInt64) (maxSizeBytes : UInt64)
    (hentries : state.entries = (entry :: rest) :: others) :
    StepOk dangling maxSizeBytes state ↔ readSize dangling entry rest = entry.size ∧
      (maxSizeBytes < state.currentSize - entry.size → OrderKept rest others) := by
  constructor
  · intro h
    exact h entry rest others hentries
  · intro h entry' rest' others' hentries'
    rw [hentries] at hentries'
    cases hentries'
    exact h

/-- From a state with the right size and order, the loop makes space if and only if each turn is
right. -/
theorem makesSpace_shrink_iff (hfilled : Filled state.entries)
    (hcounts : CountsRight headroomBytes state) (hhead : HeadFirst state.entries)
    (hneeded : ¬ state.currentSize ≤ maxSizeBytes) :
    MakesSpace maxSizeBytes headroomBytes (shrink dangling maxSizeBytes state) ↔
      ∀ visited ∈ (shrink dangling maxSizeBytes state).1,
        StepOk dangling maxSizeBytes visited := by
  induction hn : versionCount state.entries using Nat.strong_induction_on generalizing state with
  | _ n ih =>
      cases hentries : state.entries with
      | nil =>
          rw [shrink_nil hentries]
          refine iff_of_true ⟨fun _ hmem => (by cases hmem), hcounts, .inr ?_⟩
            fun _ hmem => (by cases hmem)
          rw [hentries]
          rfl
      | cons container others =>
          cases container with
          | nil =>
              rw [hentries] at hfilled
              exact absurd rfl (hfilled [] List.mem_cons_self).1
          | cons entry rest =>
              have hright := removesRightly hentries hfilled hcounts hhead hneeded
              have hstep := stepOk_iff dangling maxSizeBytes hentries
              have hsize := sub_readSize_iff hcounts hentries (readSize dangling entry rest)
              by_cases hfits : state.currentSize - readSize dangling entry rest ≤ maxSizeBytes
              · -- The rest fits, so what counts is the size.
                rw [shrink_of_fits hentries hfits]
                simp only [List.forall_mem_singleton, hstep]
                constructor
                · intro h
                  have hread := hsize.mp h.counts
                  rw [hread] at hfits
                  exact ⟨hread, fun hlt => absurd hfits (UInt64.not_le.mpr hlt)⟩
                · intro h
                  exact ⟨fun visited hmem => List.mem_singleton.mp hmem ▸ hright, hsize.mpr h.1,
                    .inl hfits⟩
              · rw [shrink_of_not_fits hentries hfits]
                have hnextFilled : Filled (nextState dangling state entry rest others).entries := by
                  rw [hentries] at hfilled
                  exact hfilled.next
                have hnextCounts :
                    CountsRight headroomBytes (nextState dangling state entry rest others) ↔
                      readSize dangling entry rest = entry.size := by
                  rw [← hsize, CountsRight, nextState, totalSize_nextContainers]
                have hless : versionCount (nextState dangling state entry rest others).entries < n := by
                  rw [← hn, hentries, nextState, versionCount_nextContainers]
                  simp [versionCount]
                have hloop := fun hread hhead =>
                  ih _ hless hnextFilled (hnextCounts.mpr hread) hhead hfits rfl
                simp only [List.forall_mem_cons, hstep]
                constructor
                · intro h
                  have hrest : MakesSpace maxSizeBytes headroomBytes
                      (shrink dangling maxSizeBytes (nextState dangling state entry rest others)) :=
                    ⟨fun visited hmem => h.removes visited (List.mem_cons_of_mem _ hmem), h.counts,
                      h.ends⟩
                  have hnext := state_of_makesSpace hnextFilled hrest
                  have hread := hnextCounts.mp hnext.1
                  exact ⟨⟨hread, fun _ => headFirst_nextContainers.mp hnext.2⟩,
                    (hloop hread hnext.2).mp hrest⟩
                · intro h
                  rcases h with ⟨⟨hread, hkept⟩, hrest⟩
                  rw [hread] at hfits
                  have hnextHead := headFirst_nextContainers.mpr (hkept (UInt64.not_le.mp hfits))
                  have hspace := (hloop hread hnextHead).mpr hrest
                  exact ⟨List.forall_mem_cons.mpr ⟨hright, hspace.removes⟩, hspace.counts,
                    hspace.ends⟩

/-! ## The map -/

def quarantineSize (q : Quarantine) : UInt64 :=
  (q.quarantineMap.values.flatten.map Entry.size).sum

/-- The containers that have versions, in an order that sorting them may give. -/
structure IsSorting (q : Quarantine) (entries : List (List Entry)) : Prop where
  perm : entries.Perm (q.quarantineMap.values.filter (· ≠ []))
  sorted : entries.Pairwise fun lhs rhs => ¬ Comes rhs lhs

theorem toNat_sum (entries : List Entry) : (entries.map Entry.size).sum.toNat =
    (entries.map fun entry => entry.size.toNat).sum % 2 ^ 64 := by
  induction entries with
  | nil => rfl
  | cons entry entries ih =>
      rw [List.map_cons, List.sum_cons, UInt64.toNat_add, ih, List.map_cons, List.sum_cons,
        Nat.add_mod_mod]

theorem totalSize_filter (entries : List (List Entry)) :
    totalSize (entries.filter (· ≠ [])) = totalSize entries := by
  induction entries with
  | nil => rfl
  | cons container entries ih =>
      by_cases hempty : container = []
      · rw [List.filter_cons_of_neg (by simpa using hempty), ih, hempty]
        rfl
      · rw [List.filter_cons_of_pos (by simpa using hempty), totalSize_cons, totalSize_cons, ih]

variable {q : Quarantine}

theorem IsSorting.totalSize_eq (h : q.IsSorting entries) :
    totalSize entries = totalSize q.quarantineMap.values := by
  rw [← totalSize_filter q.quarantineMap.values]
  exact (h.perm.flatten.map _).sum_nat

theorem IsSorting.filled (h : q.IsSorting entries) : Filled entries := by
  intro container hmem
  have hfilter := List.mem_filter.mp (h.perm.mem_iff.mp hmem)
  rcases List.mem_map.mp hfilter.1 with ⟨⟨docKey, container⟩, hentry, rfl⟩
  exact ⟨by simpa using hfilter.2, q.sorted docKey container (OrderedMap.get_of_mem hentry)⟩

theorem IsSorting.headFirst (h : q.IsSorting entries) : HeadFirst entries := by
  cases entries with
  | nil => trivial
  | cons first others => exact (List.pairwise_cons.mp h.sorted).1

theorem IsSorting.countsRight_iff (h : q.IsSorting entries) (headroomBytes : UInt64) :
    CountsRight headroomBytes ⟨q.quarantineSize + headroomBytes, entries⟩ ↔
      totalSize q.quarantineMap.values + headroomBytes.toNat < 2 ^ 64 := by
  have hsum : q.quarantineSize.toNat = totalSize q.quarantineMap.values % 2 ^ 64 := toNat_sum _
  rw [CountsRight, UInt64.toNat_add, hsum, h.totalSize_eq, Nat.mod_add_mod]
  constructor
  · intro heq
    rw [← heq]
    exact Nat.mod_lt _ (by decide)
  · exact Nat.mod_eq_of_lt

/-- The shrinking loop makes space if and only if the sizes do not wrap and in every turn the entry
behind the erased one has its size and no later container comes before the first two. -/
theorem makesSpace_iff (q : Quarantine) (headroomBytes : UInt64) (dangling : Entry → UInt64)
    (entries : List (List Entry)) (hentries : q.IsSorting entries) :
    MakesSpace q.maxSizeBytes headroomBytes
        (makeSpace dangling q.maxSizeBytes ⟨q.quarantineSize + headroomBytes, entries⟩) ↔
      totalSize q.quarantineMap.values + headroomBytes.toNat < 2 ^ 64 ∧
        ∀ visited ∈ (makeSpace dangling q.maxSizeBytes
          ⟨q.quarantineSize + headroomBytes, entries⟩).1,
            StepOk dangling q.maxSizeBytes visited := by
  rw [← hentries.countsRight_iff]
  rw [makeSpace]
  split
  case isTrue hfits =>
    constructor
    · intro h
      exact ⟨h.counts, fun visited hmem => by cases hmem⟩
    · intro h
      exact ⟨fun visited hmem => (by cases hmem), h.1, .inl hfits⟩
  case isFalse hneeded =>
    constructor
    · intro h
      have hcounts := (state_of_makesSpace hentries.filled h).1
      exact ⟨hcounts,
        (makesSpace_shrink_iff hentries.filled hcounts hentries.headFirst hneeded).mp h⟩
    · intro h
      exact (makesSpace_shrink_iff hentries.filled h.1 hentries.headFirst hneeded).mpr h.2

/-- One document with two versions of the same size, of which one fits. -/
def twoVersions : Quarantine where
  quarantineMap := OrderedMap.empty.set "doc"
    [⟨"/q/doc/10_1_a", "doc", "a", 10, 5⟩, ⟨"/q/doc/20_1_a", "doc", "a", 20, 5⟩]
  quarantinePath := "/q"
  maxSizeBytes := 5
  maxAgeSecs := 60
  maxVersions := 5
  sorted := by
    intro docKey container h
    rw [OrderedMap.get_set] at h
    split at h
    · cases h
      simp [Sorted]
    · cases h

theorem makesSpace_twoVersions : MakesSpace 5 0
    (makeSpace Entry.size 5 ⟨twoVersions.quarantineSize + 0, [twoVersions.container "doc"]⟩) := by
  have hsorting : twoVersions.IsSorting [twoVersions.container "doc"] :=
    ⟨List.Perm.refl _, List.pairwise_singleton _ _⟩
  refine (makesSpace_iff twoVersions 0 Entry.size _ hsorting).mpr ⟨by decide, ?_⟩
  have hentries : [twoVersions.container "doc"] =
      [[⟨"/q/doc/10_1_a", "doc", "a", 10, 5⟩, ⟨"/q/doc/20_1_a", "doc", "a", 20, 5⟩]] := rfl
  rw [makeSpace, if_neg (by decide), shrink_of_fits hentries (by decide)]
  exact List.forall_mem_singleton.mpr
    ((stepOk_iff _ _ hentries).mpr ⟨rfl, fun hlt => absurd hlt (by decide)⟩)

/-- One document with a large version in front of two small ones. -/
def largeFirst : Quarantine where
  quarantineMap := OrderedMap.empty.set "doc"
    [⟨"/q/doc/10_1_a", "doc", "a", 10, 10⟩, ⟨"/q/doc/20_1_a", "doc", "a", 20, 1⟩,
      ⟨"/q/doc/30_1_a", "doc", "a", 30, 1⟩]
  quarantinePath := "/q"
  maxSizeBytes := 5
  maxAgeSecs := 60
  maxVersions := 5
  sorted := by
    intro docKey container h
    rw [OrderedMap.get_set] at h
    split at h
    · cases h
      simp [Sorted]
    · cases h

/-- After the large version the rest fits, but the size of a small one was subtracted. -/
theorem not_makesSpace_largeFirst :
    largeFirst.IsSorting [largeFirst.container "doc"] ∧ ¬ MakesSpace 5 0
      (makeSpace Entry.size 5 ⟨largeFirst.quarantineSize + 0, [largeFirst.container "doc"]⟩) := by
  refine ⟨⟨List.Perm.refl _, List.pairwise_singleton _ _⟩, fun h => ?_⟩
  have hentries : [largeFirst.container "doc"] =
      [[⟨"/q/doc/10_1_a", "doc", "a", 10, 10⟩, ⟨"/q/doc/20_1_a", "doc", "a", 20, 1⟩,
        ⟨"/q/doc/30_1_a", "doc", "a", 30, 1⟩]] := rfl
  rw [makeSpace, if_neg (by decide), shrink_of_not_fits hentries (by decide)] at h
  have hcounts := (h.removes _ (List.mem_cons_of_mem _ (mem_shrink rfl))).counts
  rw [CountsRight] at hcounts
  exact absurd hcounts (by decide)

end Quarantine

end CoolOnline
