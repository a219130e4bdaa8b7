import CoolOnline.Browser.Tile
import Mathlib.Data.List.Chain
import Mathlib.Data.List.TakeWhile

/-! # Raw deltas of a tile

The raw deltas of a tile have consecutive ids, and the first is a keyframe. Rehydration takes those
from the last keyframe on, or those after the ones that it has taken before.
-/

namespace CoolOnline.Browser

/-- The last keyframe with the deltas after it. -/
def current (l : List RawDelta) : List RawDelta := l.drop (Tile.lastKeyframe l)

def Consecutive (l : List RawDelta) : Prop := l.IsChain fun a b => b.id = a.id + 1

structure Contiguous (l : List RawDelta) : Prop where
  consecutive : Consecutive l
  keyframe : ∀ first ∈ l.head?, first.isKeyframe = true

/-- A keyframe with deltas after it. -/
def StartsAtLastKeyframe (l : List RawDelta) : Prop :=
  ∃ keyframe deltas, l = keyframe :: deltas ∧ keyframe.isKeyframe = true ∧
    ∀ d ∈ deltas, d.isKeyframe = false

variable {l : List RawDelta} {d : RawDelta}

namespace Tile

theorem keyframeFrom_le (l : List RawDelta) (n : Nat) : keyframeFrom l n ≤ n := by
  induction n with
  | zero => exact Nat.le_refl 0
  | succ n ih =>
      rw [keyframeFrom]
      split
      · exact Nat.le_refl _
      · omega

theorem keyframeFrom_append {n : Nat} (h : n < l.length) :
    keyframeFrom (l ++ [d]) n = keyframeFrom l n := by
  induction n with
  | zero => rfl
  | succ n ih =>
      rw [keyframeFrom, keyframeFrom, List.getElem?_append_left h, ih (by omega)]

theorem lastKeyframe_lt (h : l ≠ []) : lastKeyframe l < l.length := by
  have hle := keyframeFrom_le l (l.length - 1)
  have hpos := List.length_pos_iff.mpr h
  rw [lastKeyframe]
  omega

theorem lastKeyframe_append (h : l ≠ []) :
    lastKeyframe (l ++ [d]) = if d.isKeyframe then l.length else lastKeyframe l := by
  obtain ⟨n, hn⟩ := Nat.exists_eq_succ_of_ne_zero (List.length_pos_iff.mpr h).ne'
  have hlast : (l ++ [d])[n + 1]? = some d := by
    simp [← Nat.succ_eq_add_one, ← hn]
  rw [lastKeyframe, lastKeyframe, List.length_append, List.length_singleton, hn,
    Nat.add_sub_cancel, Nat.succ_eq_add_one, keyframeFrom, hlast, Nat.add_sub_cancel,
    keyframeFrom_append (by omega)]
  rfl

end Tile

open Tile

@[simp] theorem current_nil : current [] = [] := rfl

@[simp] theorem current_singleton : current [d] = [d] := rfl

theorem current_append_keyframe (h : d.isKeyframe = true) : current (l ++ [d]) = [d] := by
  cases hl : l with
  | nil => rfl
  | cons first rest =>
      rw [← hl, current, lastKeyframe_append (by simp [hl]), if_pos h, List.drop_left]

theorem current_append_delta (hl : l ≠ []) (h : d.isKeyframe = false) :
    current (l ++ [d]) = current l ++ [d] := by
  rw [current, lastKeyframe_append hl, h, if_neg Bool.false_ne_true,
    List.drop_append_of_le_length (lastKeyframe_lt hl).le]
  rfl

theorem current_eq_nil : current l = [] ↔ l = [] := by
  constructor
  · intro h
    by_contra hl
    have hlt := lastKeyframe_lt hl
    rw [current, List.drop_eq_nil_iff] at h
    omega
  · rintro rfl
    rfl

theorem current_suffix (l : List RawDelta) : current l <:+ l := List.drop_suffix _ _

/-- The first keyframe is found where no later one is. -/
theorem startsAtLastKeyframe_current (hl : l ≠ [])
    (h : ∀ first ∈ l.head?, first.isKeyframe = true) : StartsAtLastKeyframe (current l) := by
  induction l using List.reverseRecOn with
  | nil => exact absurd rfl hl
  | append_singleton l d ih =>
      cases hd : d.isKeyframe with
      | true => exact ⟨d, [], current_append_keyframe hd, hd, by simp⟩
      | false =>
          have hrest : l ≠ [] := by
            rintro rfl
            rw [h d rfl] at hd
            exact Bool.noConfusion hd
          have hhead : ∀ first ∈ l.head?, first.isKeyframe = true := by
            intro first hfirst
            apply h
            rw [List.head?_append]
            simp_all
          obtain ⟨keyframe, deltas, hcurrent, hkey, hdeltas⟩ := ih hrest hhead
          refine ⟨keyframe, deltas ++ [d], ?_, hkey, ?_⟩
          · rw [current_append_delta hrest hd, hcurrent, List.cons_append]
          · intro d' hd'
            rcases List.mem_append.mp hd' with hd' | hd'
            · exact hdeltas d' hd'
            · rw [List.mem_singleton.mp hd']
              exact hd

theorem StartsAtLastKeyframe.current_eq (h : StartsAtLastKeyframe l) : current l = l := by
  obtain ⟨keyframe, deltas, rfl, hkey, hdeltas⟩ := h
  induction deltas using List.reverseRecOn with
  | nil => rfl
  | append_singleton deltas d ih =>
      have hd : d.isKeyframe = false := hdeltas d (by simp)
      rw [← List.cons_append, current_append_delta (List.cons_ne_nil _ _) hd,
        ih fun d' hd' => hdeltas d' (by simp [hd'])]

/-! ## Ids -/

theorem Consecutive.increasing (h : Consecutive l) : l.Pairwise fun a b => a.id < b.id := by
  have htrans : Trans (fun a b : RawDelta => a.id < b.id) (fun a b : RawDelta => a.id < b.id)
      (fun a b : RawDelta => a.id < b.id) := ⟨fun hab hbc => Nat.lt_trans hab hbc⟩
  apply List.isChain_iff_pairwise.mp
  exact List.IsChain.imp (fun a b hab => by omega) h

/-- Every id from the first to the last is there. -/
theorem Consecutive.exists_id (h : Consecutive l) {first last : RawDelta}
    (hfirst : l.head? = some first) (hlast : l.getLast? = some last) {id : Nat}
    (hle : first.id ≤ id) (hge : id ≤ last.id) : ∃ d ∈ l, d.id = id := by
  induction l generalizing first with
  | nil => cases hfirst
  | cons d l ih =>
      obtain rfl : d = first := Option.some.inj hfirst
      rcases Nat.eq_or_lt_of_le hle with heq | hlt
      · exact ⟨d, List.mem_cons_self, heq⟩
      · obtain ⟨hnext, hrest⟩ := List.isChain_cons.mp h
        cases l with
        | nil =>
            obtain rfl : d = last := by simpa using hlast
            omega
        | cons next l =>
            have hid : next.id = d.id + 1 := hnext next rfl
            rw [List.getLast?_cons_cons] at hlast
            obtain ⟨d', hmem, hd'⟩ := ih hrest rfl hlast (by omega)
            exact ⟨d', List.mem_cons_of_mem _ hmem, hd'⟩

/-- The search for an id ends where the larger ids start. -/
theorem findIdx?_id (h : l.Pairwise fun a b => a.id < b.id) {id : Nat} (hid : ∃ d ∈ l, d.id = id) :
    ∃ i, l.findIdx? (fun d => d.id = id) = some i ∧
      l.take (i + 1) = l.takeWhile (fun d => d.id ≤ id) ∧
      l.drop (i + 1) = l.dropWhile (fun d => d.id ≤ id) := by
  induction l with
  | nil => simp at hid
  | cons d l ih =>
      obtain ⟨hlarger, hrest⟩ := List.pairwise_cons.mp h
      by_cases hd : d.id = id
      · have hnone : ∀ d' ∈ l, ¬ d'.id ≤ id := by
          intro d' hd'
          have hlt := hlarger d' hd'
          omega
        refine ⟨0, by simp [List.findIdx?_cons, hd], ?_, ?_⟩
        · cases l with
          | nil => simp [hd]
          | cons next l => simp [hd, hnone next List.mem_cons_self]
        · cases l with
          | nil => simp [hd]
          | cons next l => simp [hd, hnone next List.mem_cons_self]
      · obtain ⟨d', hmem, hd'⟩ := hid
        have hmem : d' ∈ l := by
          rcases List.mem_cons.mp hmem with rfl | hmem
          · exact absurd hd' hd
          · exact hmem
        have hle : d.id ≤ id := by
          have hlt := hlarger d' hmem
          omega
        obtain ⟨i, hfind, htake, hdrop⟩ := ih hrest ⟨d', hmem, hd'⟩
        refine ⟨i + 1, by simp [List.findIdx?_cons, hd, hfind], ?_, ?_⟩
        · simp [hle, htake]
        · simp [hle, hdrop]

theorem getLast?_takeWhile_id (h : l.Pairwise fun a b => a.id < b.id) {id : Nat}
    (hid : ∃ d ∈ l, d.id = id) :
    ∃ taken, (l.takeWhile fun d => d.id ≤ id).getLast? = some taken ∧ taken.id = id := by
  induction l with
  | nil => simp at hid
  | cons d l ih =>
      obtain ⟨hlarger, hrest⟩ := List.pairwise_cons.mp h
      obtain ⟨d', hmem, hd'⟩ := hid
      rcases List.mem_cons.mp hmem with rfl | hmem
      · have hnone : l.takeWhile (fun d => decide (d.id ≤ id)) = [] := by
          cases l with
          | nil => rfl
          | cons next l =>
              have hlt := hlarger next List.mem_cons_self
              simpa using by omega
        exact ⟨d', by simp [hd', hnone], hd'⟩
      · have hle : d.id ≤ id := by
          have hlt := hlarger d' hmem
          omega
        obtain ⟨taken, htaken, hid⟩ := ih hrest ⟨d', hmem, hd'⟩
        refine ⟨taken, ?_, hid⟩
        rw [List.takeWhile_cons_of_pos (by simpa using hle), List.getLast?_cons, htaken]
        rfl

/-! ## Slices -/

/-- What was taken of the last keyframe and its deltas, where the next slice continues after it. -/
def continued (l : List RawDelta) (lastPendingId : Nat) : List RawDelta :=
  if (current l).head?.any fun d => d.id < lastPendingId then
    (current l).takeWhile fun d => d.id ≤ lastPendingId
  else []

variable {lastPendingId : Nat}

@[simp] theorem continued_nil : continued [] lastPendingId = [] := rfl

theorem continued_zero : continued l 0 = [] := by simp [continued]

theorem continued_of_startsAtLastKeyframe (h : StartsAtLastKeyframe (current l)) :
    continued (current l) lastPendingId = continued l lastPendingId := by
  rw [continued, h.current_eq, continued]

theorem continued_append_keyframe (h : d.isKeyframe = true) (hid : lastPendingId < d.id) :
    continued (l ++ [d]) lastPendingId = [] := by
  rw [continued, current_append_keyframe h]
  simp [hid.le]

theorem continued_append_delta (hl : l ≠ []) (h : d.isKeyframe = false)
    (hid : lastPendingId < d.id) : continued (l ++ [d]) lastPendingId = continued l lastPendingId := by
  have hcurrent : current l ≠ [] := fun hnil => hl (current_eq_nil.mp hnil)
  rw [continued, current_append_delta hl h, List.head?_append_of_ne_nil _ hcurrent, continued]
  split
  · rw [List.takeWhile_append]
    split
    case isTrue hlength =>
      rw [List.takeWhile_cons_of_neg (by simpa using hid), List.append_nil]
      exact ((List.takeWhile_prefix _).eq_of_length hlength).symm
    case isFalse => rfl
  · rfl

/-- All of it was taken when the last one was, unless it is a keyframe alone. -/
theorem continued_last (h : Consecutive l) {last : RawDelta} (hlast : l.getLast? = some last)
    (hne : continued l last.id ≠ []) : continued l last.id = current l := by
  rw [continued] at hne ⊢
  split at hne
  case isTrue hlt =>
    rw [if_pos hlt, List.takeWhile_eq_self_iff]
    intro d hd
    have hmem : d ∈ l := (current_suffix l).subset hd
    obtain ⟨before, rfl⟩ : ∃ before, l = before ++ [last] :=
      ⟨l.dropLast, (List.dropLast_append_getLast? last hlast).symm⟩
    rcases List.mem_append.mp hmem with hbefore | hlast
    · have hlt := (List.pairwise_append.mp h.increasing).2.2 d hbefore last (by simp)
      simpa using hlt.le
    · rw [List.mem_singleton.mp hlast]
      simp
  case isFalse => exact absurd rfl hne

/-- A slice is all from the last keyframe on, or what comes after that which was taken before. -/
theorem slice_cases (h : Contiguous l) {last : RawDelta} (hlast : l.getLast? = some last)
    (hpending : lastPendingId < last.id) {n : Nat} (hn : rehydrateFrom l lastPendingId = n) :
    (continued l lastPendingId = [] ∧ l.drop n = current l ∧
        (l.take n).drop (lastKeyframe l) = []) ∨
      (current l = continued l lastPendingId ++ l.drop n ∧ l.drop n ≠ [] ∧
        (l.take n).drop (lastKeyframe l) = continued l lastPendingId ∧
        ∃ taken, (continued l lastPendingId).getLast? = some taken ∧ taken.id = lastPendingId) := by
  have hl : l ≠ [] := by
    rintro rfl
    cases hlast
  have hhead : l[lastKeyframe l]? = (current l).head? := by rw [current, List.head?_drop]
  have hn' := hn
  simp only [rehydrateFrom, hhead] at hn
  by_cases hcontinues : ((current l).head?.any fun d => d.id < lastPendingId) = true
  case neg =>
    left
    rw [if_neg hcontinues] at hn
    subst hn
    exact ⟨by rw [continued, if_neg hcontinues], rfl, by simp⟩
  case pos =>
    right
    rw [if_pos hcontinues] at hn
    have hsorted := h.consecutive.increasing
    obtain ⟨keyframe, deltas, hcurrent, -⟩ := startsAtLastKeyframe_current hl h.keyframe
    have hkey : keyframe.id < lastPendingId := by simpa [hcurrent] using hcontinues
    have hsplit : l = l.take (lastKeyframe l) ++ keyframe :: deltas := by
      rw [← hcurrent, current, List.take_append_drop]
    have hcur : Consecutive (keyframe :: deltas) := by
      rw [← hcurrent]
      exact h.consecutive.suffix (current_suffix l)
    have hcurlast : (keyframe :: deltas).getLast? = some last := by
      rw [hsplit, List.getLast?_append_of_ne_nil _ (List.cons_ne_nil _ _)] at hlast
      exact hlast
    obtain ⟨d, hmem, hd⟩ := hcur.exists_id rfl hcurlast hkey.le hpending.le
    have hidl : ∃ d ∈ l, d.id = lastPendingId :=
      ⟨d, (current_suffix l).subset (hcurrent ▸ hmem), hd⟩
    obtain ⟨i, hfind, htake, hdrop⟩ := findIdx?_id hsorted hidl
    rw [hfind] at hn
    subst hn
    -- the raw deltas before the last keyframe are older than it
    have hold : ∀ d ∈ l.take (lastKeyframe l), decide (d.id ≤ lastPendingId) = true := by
      intro d hd
      rw [hsplit] at hsorted
      have hlt := (List.pairwise_append.mp hsorted).2.2 d hd keyframe List.mem_cons_self
      simpa using by omega
    have hcont : continued l lastPendingId =
        (keyframe :: deltas).takeWhile fun d => d.id ≤ lastPendingId := by
      rw [continued, if_pos hcontinues, hcurrent]
    have htaken : l.take (i + 1) = l.take (lastKeyframe l) ++ continued l lastPendingId := by
      rw [htake, hcont]
      nth_rewrite 1 [hsplit]
      exact List.takeWhile_append_of_pos hold
    have hleft : l.drop (i + 1) = (keyframe :: deltas).dropWhile fun d => d.id ≤ lastPendingId := by
      rw [hdrop]
      nth_rewrite 1 [hsplit]
      exact List.dropWhile_append_of_pos hold
    refine ⟨?_, ?_, ?_, ?_⟩
    · rw [hleft, hcont, List.takeWhile_append_dropWhile, hcurrent]
    · rw [hleft]
      intro hnil
      have hall := List.dropWhile_eq_nil_iff.mp hnil last (List.mem_of_getLast? hcurlast)
      have hle : last.id ≤ lastPendingId := by simpa using hall
      omega
    · rw [htaken]
      have hlength : (l.take (lastKeyframe l)).length = lastKeyframe l :=
        List.length_take_of_le (lastKeyframe_lt hl).le
      nth_rewrite 1 [← hlength]
      exact List.drop_left
    · rw [hcont]
      exact getLast?_takeWhile_id hcur.increasing ⟨d, hmem, hd⟩

/-- What a slice is. -/
structure SliceOf (l : List RawDelta) (lastPendingId : Nat) (x : PendingDelta) : Prop where
  suffix : x.rawDelta <:+ l
  ne_nil : x.rawDelta ≠ []
  current_eq : current l = x.base ++ x.rawDelta
  base_eq : x.base = continued l lastPendingId
  isKeyframe_iff : x.isKeyframe = true ↔ x.base = []
  next : x.isKeyframe = false → ∃ first, x.rawDelta.head? = some first ∧ first.id = lastPendingId + 1
  last : l.getLast?.map RawDelta.id = some x.ids.2
  first : x.rawDelta.head?.map RawDelta.id = some x.ids.1

theorem slice_spec (coords : TileCoordData) (wireMessage : Bool) (h : Contiguous l)
    {last : RawDelta} (hlast : l.getLast? = some last) (hpending : lastPendingId < last.id) :
    ∃ x, slice coords l lastPendingId wireMessage = some x ∧ x.coords = coords ∧
      SliceOf l lastPendingId x := by
  have hl : l ≠ [] := by
    rintro rfl
    cases hlast
  obtain ⟨keyframe, deltas, hcurrent, hkey, hdeltas⟩ := startsAtLastKeyframe_current hl h.keyframe
  generalize hn : rehydrateFrom l lastPendingId = n
  have hsuffix : l.drop n <:+ l := List.drop_suffix n l
  have hcases := slice_cases h hlast hpending hn
  cases hslice : l.drop n with
  | nil =>
      rcases hcases with ⟨-, heq, -⟩ | ⟨-, hne, -⟩
      · rw [hslice, hcurrent] at heq
        cases heq
      · exact absurd hslice hne
  | cons first rest =>
      refine ⟨⟨coords, first :: rest, first.isKeyframe, wireMessage, (first.id, last.id),
        (l.take n).drop (lastKeyframe l)⟩, ?_, rfl, ?_⟩
      · simp only [slice, hn, hslice, hlast]
      · rw [hslice] at hcases hsuffix
        rcases hcases with ⟨hcont, heq, hbase⟩ | ⟨heq, -, hbase, taken, htaken, hid⟩
        · have hfirst : first = keyframe := by
            rw [hcurrent] at heq
            exact (List.cons.inj heq).1
          refine ⟨hsuffix, List.cons_ne_nil _ _, ?_, ?_, ?_, ?_, ?_, rfl⟩
          · rw [hbase, ← heq, List.nil_append]
          · rw [hbase, hcont]
          · simp [hbase, hfirst, hkey]
          · intro hdelta
            rw [hfirst, hkey] at hdelta
            cases hdelta
          · rw [hlast]
            rfl
        · have hne : continued l lastPendingId ≠ [] := by
            intro hnil
            rw [hnil] at htaken
            cases htaken
          have hdelta : first.isKeyframe = false := by
            obtain ⟨base, bases, hb⟩ := List.exists_cons_of_ne_nil hne
            rw [hcurrent, hb, List.cons_append] at heq
            apply hdeltas
            rw [(List.cons.inj heq).2]
            simp
          refine ⟨hsuffix, List.cons_ne_nil _ _, ?_, hbase, ?_, ?_, ?_, rfl⟩
          · rw [hbase, heq]
          · simp [hbase, hne, hdelta]
          · intro _
            refine ⟨first, rfl, ?_⟩
            have hchain := h.consecutive.suffix (current_suffix l)
            rw [heq] at hchain
            have hnext := (List.isChain_append.mp hchain).2.2 taken htaken first rfl
            rw [hnext, hid]
          · rw [hlast]
            rfl

end CoolOnline.Browser
