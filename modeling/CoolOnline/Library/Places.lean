import Mathlib.Data.List.Basic
import Mathlib.Data.List.Perm.Basic

/-! # Things in places

Places that hold things. What comes in from outside is in one of the places until it has left.
-/

namespace CoolOnline

section Places

variable {α β : Type*} [BEq β] (held : α → List β)

/-- A place is changed, and all the others are as they were. -/
theorem count_flatMap_set {places : List α} {i : ℕ} {a : α} (h : places[i]? = some a) (b : α)
    (x : β) : ((places.set i b).flatMap held).count x + (held a).count x =
      (places.flatMap held).count x + (held b).count x := by
  induction places generalizing i with
  | nil => simp at h
  | cons first places ih =>
      cases i with
      | zero =>
          have hfirst : first = a := by simpa using h
          subst hfirst
          simp only [List.set_cons_zero, List.flatMap_cons, List.count_append]
          omega
      | succ i =>
          have hrest : places[i]? = some a := by simpa using h
          have hcount := ih hrest
          simp only [List.set_cons_succ, List.flatMap_cons, List.count_append]
          omega

theorem flatMap_set_perm [LawfulBEq β] {places : List α} {i : ℕ} {a : α} (h : places[i]? = some a)
    (b : α) : ((places.set i b).flatMap held ++ held a).Perm (places.flatMap held ++ held b) := by
  rw [List.perm_iff_count]
  intro x
  have hset := count_flatMap_set held h b x
  simpa only [List.count_append] using hset

/-- Whatever has come in is in a place or has left, as often as it came in. -/
def Conserved (entered : List β) (places : List α) (left : List β) : Prop :=
  ∀ x, entered.count x = (places.flatMap held).count x + left.count x

variable {held} {entered left : List β} {places : List α} {i : ℕ} {a b : α}

/-- One place is changed: what comes in is put there, and what is no longer there leaves. -/
theorem Conserved.set (h : Conserved held entered places left) (hi : places[i]? = some a)
    {come gone : List β}
    (hb : ∀ x, (held a).count x + come.count x = (held b).count x + gone.count x) :
    Conserved held (entered ++ come) (places.set i b) (left ++ gone) := by
  intro x
  have hset := count_flatMap_set held hi b x
  have hbefore := h x
  have hplace := hb x
  simp only [List.count_append]
  omega

/-- What has just left a place is put into another one. -/
theorem Conserved.put {s : β} (h : Conserved held entered places (left ++ [s]))
    (hi : places[i]? = some a) (hb : ∀ x, (held b).count x = (held a).count x + [s].count x) :
    Conserved held entered (places.set i b) left := by
  intro x
  have hset := count_flatMap_set held hi b x
  have hbefore := h x
  have hplace := hb x
  simp only [List.count_append] at hbefore
  omega

theorem Conserved.perm [LawfulBEq β] (h : Conserved held entered places left) :
    entered.Perm (places.flatMap held ++ left) := by
  rw [List.perm_iff_count]
  intro x
  rw [h x, List.count_append]

/-- What has come in once is in one place at most. -/
theorem Conserved.nodup [LawfulBEq β] (h : Conserved held entered places left)
    (honce : entered.Nodup) : (places.flatMap held).Nodup :=
  (List.nodup_append.mp (h.perm.nodup_iff.mp honce)).1

end Places

end CoolOnline
