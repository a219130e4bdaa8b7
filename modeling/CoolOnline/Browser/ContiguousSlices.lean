import CoolOnline.Browser.TileRefinement

/-! # Slices of raw deltas are contiguous

In every run of the tile manager the raw deltas of a tile are without gaps from a keyframe on, and the
slices that rehydration hands over, applied in their order, give the image of the newest keyframe
that was received and of all later deltas.
-/

namespace CoolOnline.Browser.TileManager

variable {ι : Type} {codec : Codec ι}

/-- What the flow keeps holds along the runs of the tile manager. -/
structure FlowOk (codec : Codec ι) (m : TileManager ι) : Prop where
  keyed : m.WellKeyed
  flow : m.flow.Ok codec

theorem flowOk_start (haveWorkers : Bool) : FlowOk codec (start haveWorkers) := by
  refine ⟨?_, ?_, trivial⟩
  · intro key t hget
    cases hget
  · intro c t hget
    cases hget

theorem FlowOk.step {m m' : TileManager ι} {e : Event} (h : FlowOk codec m)
    (hstep : step codec m e = some m') : FlowOk codec m' := by
  have hposts : PostsIf (fun _ => True) m e := by
    cases e <;> simp [PostsIf]
  obtain ⟨hkeyed, hsteps⟩ := step_refines hstep hposts h.keyed
  exact ⟨hkeyed, h.flow.steps hsteps⟩

theorem flowOk_of_run {haveWorkers : Bool} {es : List Event} {m : TileManager ι}
    (hrun : run (TileManager.step codec) (start haveWorkers) es = some m) : FlowOk codec m :=
  run_invariant _ (fun _ _ _ hstep h => h.step hstep) hrun (flowOk_start haveWorkers)

/-- At any time the raw deltas are contiguous, and each slice was when it was handed over. -/
theorem slices_contiguous {haveWorkers : Bool} {es : List Event} {m : TileManager ι}
    (hrun : run (TileManager.step codec) (start haveWorkers) es = some m) :
    (∀ key tile, m.tiles.get key = some tile → Contiguous tile.rawDeltas) ∧
      Along (SliceContiguous codec) m.history := by
  have hok := flowOk_of_run hrun
  refine ⟨?_, hok.flow.slices⟩
  intro key tile hget
  exact (hok.flow.tiles tile.coords tile.flow (flow_tiles_of_get hok.keyed hget)).contiguous

/-- A keyframe and two deltas of a visible tile, whose bitmap is reclaimed in between. -/
def reclaimedBetween : List Event :=
  let c : TileCoordData := ⟨0, 0, 10, 0, 0⟩
  [.beginTransaction,
    .onTileMsg c 0 1 (some ⟨[1], true⟩), .onTileMsg c 0 2 (some ⟨[2], false⟩),
    .endTransaction none, .workerHandles 0, .workerReply 0 0, .reclaimTileBitmapMemory c.key,
    .beginTransaction, .onTileMsg c 0 3 (some ⟨[3], false⟩), .endTransaction none]

/-- Images as the data that they were made from. -/
def dataCodec : Codec (List (List UInt8)) := ⟨fun data => [data], fun image data => image ++ [data]⟩

/-- The ids of the slices, newest first. -/
def slicesOf (history : List TileEntry) : List (Nat × Nat) :=
  history.filterMap fun
    | .handed _ _ x => some x.ids
    | .received .. => none

theorem slices_contiguous_reclaimedBetween :
    ∃ m, run (TileManager.step dataCodec) (start true) reclaimedBetween = some m ∧
      slicesOf m.history = [(1, 3), (1, 2), (1, 1)] ∧
      Along (SliceContiguous dataCodec) m.history := by
  obtain ⟨m, hrun, hslices⟩ := run_reaches (TileManager.step dataCodec) (start true)
    reclaimedBetween (P := fun m => slicesOf m.history = [(1, 3), (1, 2), (1, 1)])
    (by decide +kernel)
  exact ⟨m, hrun, hslices, (slices_contiguous hrun).2⟩

end CoolOnline.Browser.TileManager
