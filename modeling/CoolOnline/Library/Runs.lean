import Mathlib.Data.List.Basic

/-! # Runs between separators

The longest pieces of a list without a separator, by the positions where they begin and end, and a
scan that lists them.
-/

namespace CoolOnline.Runs

variable {α : Type*}

/-- A piece that is not empty, has no separator in it, and is between separators or the ends of the
list. -/
structure IsRun (sep : α) (text : List α) (start stop : Nat) : Prop where
  nonempty : start < stop
  inside : stop ≤ text.length
  free (i : Nat) (hstart : start ≤ i) (hstop : i < stop) : text[i]? ≠ some sep
  left (i : Nat) (h : i + 1 = start) : text[i]? = some sep
  right (h : stop < text.length) : text[stop]? = some sep

/-- These are the runs that end up to a position, in order. -/
structure Listed (sep : α) (text : List α) (bound : Nat) (runs : List (Nat × Nat)) : Prop where
  mem_iff (run : Nat × Nat) : run ∈ runs ↔ IsRun sep text run.1 run.2 ∧ run.2 ≤ bound
  ordered : runs.Pairwise fun run next => run.2 < next.1

/-- A scan that has come to `i`, with the runs before `start` listed, and with no separator from
there on. -/
structure Scan (sep : α) (text : List α) (i start : Nat) (runs : List (Nat × Nat)) : Prop where
  le : start ≤ i
  free (j : Nat) (hstart : start ≤ j) (hlt : j < i) : text[j]? ≠ some sep
  left (j : Nat) (h : j + 1 = start) : text[j]? = some sep
  listed : Listed sep text start runs

variable {sep : α} {text : List α} {i start stop start' stop' bound : Nat} {runs : List (Nat × Nat)}

/-- No run goes over a separator. -/
theorem IsRun.beside (h : IsRun sep text start stop) (hsep : text[i]? = some sep) :
    stop ≤ i ∨ i < start := by
  by_contra hover
  exact h.free i (by omega) (by omega) hsep

/-- Two runs are the same, or there is a separator between them. -/
theorem IsRun.apart (h : IsRun sep text start stop) (h' : IsRun sep text start' stop') :
    start = start' ∧ stop = stop' ∨ stop < start' ∨ stop' < start := by
  have hle := h.nonempty
  have hle' := h'.nonempty
  rcases Nat.lt_trichotomy start start' with hlt | rfl | hlt
  · have hbeside := h.beside (h'.left (start' - 1) (by omega))
    omega
  · rcases Nat.lt_trichotomy stop stop' with hlt | rfl | hlt
    · have hbeside := h'.beside (h.right (Nat.lt_of_lt_of_le hlt h'.inside))
      omega
    · exact .inl ⟨rfl, rfl⟩
    · have hbeside := h.beside (h'.right (Nat.lt_of_lt_of_le hlt h.inside))
      omega
  · have hbeside := h'.beside (h.left (start - 1) (by omega))
    omega

theorem listed_nil : Listed sep text 0 [] :=
  ⟨fun _ => iff_of_false List.not_mem_nil fun h =>
      Nat.not_lt_zero _ (Nat.lt_of_lt_of_le h.1.nonempty h.2), .nil⟩

/-- No run ends behind a separator. -/
theorem Listed.skip (h : Listed sep text bound runs) (hsep : text[bound]? = some sep) :
    Listed sep text (bound + 1) runs := by
  refine ⟨fun run => (h.mem_iff run).trans (and_congr_right fun hrun => ?_), h.ordered⟩
  have hbeside := hrun.beside hsep
  have hle := hrun.nonempty
  omega

/-- The next run comes last. -/
theorem Listed.push (h : Listed sep text start runs) (hrun : IsRun sep text start stop) :
    Listed sep text stop (runs ++ [(start, stop)]) := by
  have hle := hrun.nonempty
  refine ⟨fun other => ?_, ?_⟩
  · rw [List.mem_append, List.mem_singleton, h.mem_iff]
    constructor
    · rintro (⟨hother, hend⟩ | rfl)
      · exact ⟨hother, by omega⟩
      · exact ⟨hrun, Nat.le_refl stop⟩
    · intro hother
      obtain ⟨hother, hend⟩ := hother
      have hle' := hother.nonempty
      rcases hother.apart hrun with ⟨hstart, hstop⟩ | hbefore | hbehind
      · exact .inr (Prod.ext hstart hstop)
      · exact .inl ⟨hother, Nat.le_of_lt hbefore⟩
      · omega
  · rw [List.pairwise_append]
    refine ⟨h.ordered, List.pairwise_singleton _ _, fun other hother run hmem => ?_⟩
    rw [List.mem_singleton.mp hmem]
    obtain ⟨hother, hend⟩ := (h.mem_iff other).mp hother
    rcases hother.apart hrun with ⟨-, hstop⟩ | hbefore | hbehind
    · exact absurd (hstop ▸ hend) (Nat.not_le_of_lt hle)
    · exact hbefore
    · have hle' := hother.nonempty
      exact absurd hend (by omega)

theorem scan_nil : Scan sep text 0 0 [] :=
  ⟨Nat.le_refl 0, fun j _ hlt => absurd hlt (Nat.not_lt_zero j),
    fun j h => absurd h (Nat.succ_ne_zero j), listed_nil⟩

/-- What is scanned between separators is a run. -/
theorem Scan.isRun (h : Scan sep text i start runs) (hlt : start < i) (hinside : i ≤ text.length)
    (hright : i < text.length → text[i]? = some sep) : IsRun sep text start i :=
  ⟨hlt, hinside, h.free, h.left, hright⟩

theorem Scan.other (h : Scan sep text i start runs) (hne : text[i]? ≠ some sep) :
    Scan sep text (i + 1) start runs := by
  refine ⟨Nat.le_succ_of_le h.le, fun j hstart hlt => ?_, h.left, h.listed⟩
  rcases Nat.lt_succ_iff_lt_or_eq.mp hlt with hbefore | rfl
  · exact h.free j hstart hbefore
  · exact hne

/-- The runs up to where the scan has come. -/
def scanned (i start : Nat) (runs : List (Nat × Nat)) : List (Nat × Nat) :=
  if start < i then runs ++ [(start, i)] else runs

theorem scanned_append (i start : Nat) (runs : List (Nat × Nat)) :
    scanned i start runs = runs ++ scanned i start [] := by
  rw [scanned, scanned]
  split
  · rw [List.nil_append]
  · rw [List.append_nil]

theorem Scan.listed_scanned (h : Scan sep text i start runs) (hinside : i ≤ text.length)
    (hright : i < text.length → text[i]? = some sep) :
    Listed sep text i (scanned i start runs) := by
  rw [scanned]
  split
  case isTrue hlt => exact h.listed.push (h.isRun hlt hinside hright)
  case isFalse hnot =>
    have heq : start = i := Nat.le_antisymm h.le (Nat.le_of_not_lt hnot)
    exact heq ▸ h.listed

theorem Scan.separator (h : Scan sep text i start runs) (hsep : text[i]? = some sep) :
    Scan sep text (i + 1) (i + 1) (scanned i start runs) := by
  have hinside := Nat.le_of_lt (List.getElem?_eq_some_iff.mp hsep).1
  refine ⟨Nat.le_refl _, fun j hstart hlt => absurd hlt (Nat.not_lt_of_le hstart), fun j hj => ?_,
    (h.listed_scanned hinside fun _ => hsep).skip hsep⟩
  obtain rfl := Nat.succ_inj.mp hj
  exact hsep

/-- At its end the scan has listed all runs. -/
theorem Scan.listed_of_end (h : Scan sep text i start runs) (hend : text.length = i) :
    Listed sep text i (scanned i start runs) :=
  h.listed_scanned (Nat.le_of_eq hend.symm) fun hlt =>
    absurd hlt (Nat.not_lt_of_le (Nat.le_of_eq hend))

end CoolOnline.Runs
