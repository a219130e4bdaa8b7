import CoolOnline.Browser.ContiguousSlices
import CoolOnline.Browser.WorkerImages

/-! # Deltas find their images in the workers

A message that is posted before the main thread has handled the reply for a tile does not list it, and
makes the worker drop the image. In the runs without such a message each delta finds its image.
-/

namespace CoolOnline.Browser.TileManager

open Relation

variable {ι : Type} {codec : Codec ι}

/-- Deltas are posted only with a message that lists the tiles that its worker has not been answered
for, and those that the message continues. -/
def postsListed (m : TileManager ι) : Event → Bool
  | .endTransaction _ => !m.posts || m.flow.listsImages
  | _ => true

/-- What holds along the runs that post so. -/
structure FlowFinds (codec : Codec ι) (m : TileManager ι) : Prop where
  ok : FlowOk codec m
  images : ImagesOk codec m.flow

theorem flowFinds_start (haveWorkers : Bool) : FlowFinds codec (start haveWorkers) := by
  refine ⟨flowOk_start haveWorkers, by simp [flow, start], ?_⟩
  intro i w hw
  obtain rfl : w = .new := by
    cases haveWorkers with
    | true => exact List.eq_of_mem_replicate (List.mem_of_getElem? hw)
    | false => simp [flow, start] at hw
  refine ⟨by simp [TileWorker.new], ?_, fun _ _ => trivial, fun _ _ => trivial, ?_, ?_,
    by simp [TileWorker.new], by simp [TileWorker.new]⟩
  · rintro x (⟨message, hmessage, -⟩ | ⟨deltas, hreply, -⟩)
    · cases hmessage
    · cases hreply
  · intro c t _ hget
    cases hget
  · intro c t _ hget
    cases hget

theorem FlowFinds.step {m m' : TileManager ι} {e : Event} (h : FlowFinds codec m)
    (hstep : stepIf (TileManager.step codec) postsListed m e = some m') : FlowFinds codec m' := by
  obtain ⟨hC, hstep⟩ := (stepIf_eq_some _).mp hstep
  have hposts : PostsIf (fun s => s.listsImages = true) m e := by
    cases e with
    | endTransaction callback =>
        intro hpost
        simpa [postsListed, hpost] using hC
    | _ => trivial
  obtain ⟨-, hsteps⟩ := step_refines hstep hposts h.ok.keyed
  exact ⟨h.ok.step hstep, h.images.steps h.ok.flow hsteps⟩

/-- Each delta that a worker has handled found its image, and no message drops an image that the main
thread has not been told of. -/
theorem finds_images {haveWorkers : Bool} {es : List Event} {m : TileManager ι}
    (hrun : run (stepIf (TileManager.step codec) postsListed) (start haveWorkers) es = some m) :
    ∀ w ∈ m.workers, (∀ h ∈ w.handled, h.FindsBase codec) ∧ w.KeepsAnswered := by
  have hfinds : FlowFinds codec m :=
    run_invariant _ (fun _ _ _ hstep h => h.step hstep) hrun (flowFinds_start haveWorkers)
  intro w hw
  obtain ⟨i, hi⟩ := List.mem_iff_getElem?.mp hw
  have hworker := hfinds.images.workers i w hi
  refine ⟨hworker.handled, ?_⟩
  intro message inbox hinbox deltas hreply x hx
  exact hworker.answered message (by simp [hinbox]) deltas hreply x hx

/-- Two tiles of one worker. -/
def firstTile : TileCoordData := ⟨0, 0, 10, 0, 0⟩
def secondTile : TileCoordData := ⟨1024, 0, 10, 0, 0⟩

/-- A keyframe of each tile and a delta of the first, of which the second is not visible yet. -/
def twoTiles : List Event :=
  [.beginTransaction,
    .onTileMsg firstTile 0 1 (some ⟨[1], true⟩), .onTileMsg firstTile 0 2 (some ⟨[2], false⟩),
    .onTileMsg secondTile 5 3 (some ⟨[3], true⟩), .endTransaction none]

/-- The second tile comes into view. -/
def secondComesIntoView : List Event :=
  [.beginTransaction, .makeTileCurrent secondTile.key, .endTransaction none]

/-- Another delta of the first tile. -/
def anotherDelta : List Event :=
  [.beginTransaction, .onTileMsg firstTile 0 4 (some ⟨[4], false⟩), .endTransaction none,
    .workerHandles 0]

def answered : List Event := [.workerHandles 0, .workerReply 0 0]

theorem finds_images_answered :
    ∃ m, run (stepIf (TileManager.step dataCodec) postsListed) (start true)
        (twoTiles ++ answered ++ secondComesIntoView ++ answered ++ anotherDelta) = some m ∧
      (m.workers[0]?.map fun w => w.handled.map Handled.found) =
        some [some [[1], [2]], none, some [[1]], none] ∧
      ∀ w ∈ m.workers, (∀ h ∈ w.handled, h.FindsBase dataCodec) ∧ w.KeepsAnswered := by
  obtain ⟨m, hrun, hfound⟩ := run_reaches
    (stepIf (TileManager.step dataCodec) postsListed) (start true)
    (twoTiles ++ answered ++ secondComesIntoView ++ answered ++ anotherDelta)
    (P := fun m => (m.workers[0]?.map fun w => w.handled.map Handled.found) =
      some [some [[1], [2]], none, some [[1]], none]) (by decide +kernel)
  exact ⟨m, hrun, hfound, finds_images hrun⟩

/-- The message for the second tile is posted before the reply for the first is handled. -/
theorem not_finds_images_comesIntoView :
    ∃ m, run (TileManager.step dataCodec) (start true)
        (twoTiles ++ secondComesIntoView ++ answered ++ answered ++ anotherDelta) = some m ∧
      ¬ ∀ w ∈ m.workers, ∀ h ∈ w.handled, h.FindsBase dataCodec := by
  obtain ⟨m, hrun, hfound⟩ := run_reaches (TileManager.step dataCodec) (start true)
    (twoTiles ++ secondComesIntoView ++ answered ++ answered ++ anotherDelta)
    (P := fun m => m.workers.any fun w => w.handled.any fun h =>
      !h.delta.isKeyframe && h.found.isNone && decide (h.delta.base ≠ [])) (by decide +kernel)
  refine ⟨m, hrun, fun hall => ?_⟩
  obtain ⟨w, hw, hany⟩ := List.any_eq_true.mp hfound
  obtain ⟨h, hh, hnone⟩ := List.any_eq_true.mp hany
  simp only [Bool.and_eq_true, Bool.not_eq_true', Option.isNone_iff_eq_none,
    decide_eq_true_eq] at hnone
  obtain ⟨⟨hdelta, hnone⟩, hbase⟩ := hnone
  obtain ⟨-, -, hfinds⟩ := hall w hw h hh hdelta
  obtain ⟨image, himage⟩ := dataCodec.imageOf_isSome hbase
  rw [hnone, himage] at hfinds
  cases hfinds

end CoolOnline.Browser.TileManager
