import BlockMachine.Proofs.Decomposition
import BlockMachine.Proofs.Launch.Plan

/-!
# Launches over the intervals of a decomposition

* `Plan.exists_of_intervals` — a launch each of whose blocks asks only for items of its own interval has a
  plan.
* `Plan.launchInOrder_eq`, `Plan.launchInOrder_error` — what a launch with a plan answers and leaves.
-/

set_option autoImplicit false

namespace BlockMachine

variable {σ α : Type}

/-- The numbers of lanes that a valid configuration allows. -/
theorem LaunchConfig.width_of_validate {config : LaunchConfig} (h : config.validate = .ok ()) :
    0 < config.width ∧ config.width ≤ maxThreadsPerBlock := by
  unfold validate at h
  by_cases hzero : config.width = 0
  · rw [if_pos hzero] at h
    cases h
  · rw [if_neg hzero] at h
    by_cases hmany : maxThreadsPerBlock < config.width
    · rw [if_pos hmany] at h
      cases h
    · exact ⟨Nat.pos_of_ne_zero hzero, Nat.le_of_not_lt hmany⟩

/-- A valid configuration allows a block. -/
theorem LaunchConfig.blockLimit_of_validate {config : LaunchConfig} (h : config.validate = .ok ())
    (hproduct : blocksPerMultiprocessor * config.multiprocessors.toNat < Word.limit) :
    ∃ blocks, config.blockLimit = .ok blocks ∧ 0 < blocks := by
  obtain ⟨hwidth, hmax⟩ := width_of_validate h
  have hpos : ∀ word : UInt64, word ≠ 0 → 0 < word.toNat := fun word hne =>
    Nat.pos_of_ne_zero fun hzero => hne (UInt64.toNat_inj.mp hzero)
  have hlimit : config.blockLimit = .ok ((config.maxBlocks.map UInt64.toNat).getD
      (blocksPerMultiprocessor * config.multiprocessors.toNat)) := by
    unfold blockLimit
    rw [Word.mul_eq_ok hproduct]
    rfl
  refine ⟨_, hlimit, ?_⟩
  unfold validate at h
  rw [if_neg (Nat.ne_of_gt hwidth), if_neg (Nat.not_lt.mpr hmax)] at h
  by_cases hzero : config.multiprocessors = 0
  · rw [if_pos hzero] at h
    cases h
  · rw [if_neg hzero] at h
    cases hblocks : config.maxBlocks with
    | none => exact Nat.mul_pos (by decide) (hpos _ hzero)
    | some blocks =>
      refine hpos blocks ?_
      rintro rfl
      rw [if_pos hblocks] at h
      cases h

/-- **The decomposition that the algorithms use** has an interval, unless there is nothing to cut. -/
theorem Decomposition.exists_forLaunch {config : LaunchConfig} (hvalid : config.validate = .ok ())
    (hproduct : blocksPerMultiprocessor * config.multiprocessors.toNat < Word.limit) {n : Nat}
    (hn : 0 < n) : ∃ cut, forLaunch config n = .ok cut ∧ cut.total = n ∧ 0 < cut.count := by
  obtain ⟨blocks, hblocks, hpos⟩ := LaunchConfig.blockLimit_of_validate hvalid hproduct
  have hwanted : 0 < blocksFor n config.width := Nat.div_pos (by omega) (by omega)
  refine ⟨_, by unfold forLaunch; rw [hblocks]; rfl, rfl, ?_⟩
  show 0 < min (min (blocksFor n config.width) blocks) n
  omega

/-- The decomposition for a launch is one of all indices. -/
theorem Decomposition.total_forLaunch {config : LaunchConfig} {n : Nat} {cut : Decomposition}
    (h : forLaunch config n = .ok cut) : cut.total = n := by
  unfold forLaunch at h
  cases hlimit : config.blockLimit with
  | error panic =>
    rw [hlimit] at h
    cases h
  | ok limit =>
    rw [hlimit] at h
    obtain rfl := Except.ok.inj h
    rfl

theorem Decomposition.of_forLaunch {config : LaunchConfig} (hvalid : config.validate = .ok ()) {n : Nat}
    (hn : 0 < n) {cut : Decomposition} (h : forLaunch config n = .ok cut) :
    cut.total = n ∧ 0 < cut.count := by
  have hproduct : blocksPerMultiprocessor * config.multiprocessors.toNat < Word.limit := by
    refine Nat.lt_of_not_le fun hle => ?_
    unfold forLaunch LaunchConfig.blockLimit at h
    rw [Word.mul, if_neg (Nat.not_lt.mpr hle)] at h
    cases h
  obtain ⟨cut', hcut, htotal, hcount⟩ := exists_forLaunch hvalid hproduct hn
  obtain rfl := Except.ok.inj (h.symm.trans hcut)
  exact ⟨htotal, hcount⟩

/-- The shape of a launch over a number of blocks. -/
def LaunchConfig.geometry (config : LaunchConfig) (blocks : Nat) : Geometry :=
  ⟨blocks, config.width, config.capability.supportsWideCopy⟩

/-- The store once a launch has been logged. -/
def Store.launched (store : Store α) (config : LaunchConfig) (blocks : Nat) : Store α :=
  let record := Record.launch blocks config.width config.scheduling config.capability
  { store with journal := store.journal.note record }

namespace Plan

/-- **A launch each of whose blocks asks only for items of its own interval has a plan.** -/
theorem exists_of_intervals (kernel : Kernel σ α) (geometry : Geometry) (calls : Array Nat)
    {slots : Array σ} (hslots : kernel.slots geometry.threads = .ok slots) (cut : Decomposition)
    (Does : Nat → List (Stage σ α) → (Nat → Stop σ α Unit) → Prop)
    (h : ∀ block < geometry.blocks, ∃ stages stops,
      Block.Runs kernel.callbacks geometry.threads
        (fun lane => kernel.program (geometry.context block lane)) ⟨slots, calls⟩ stages stops ∧
      (∀ request ∈ stages.flatMap fun stage => stage.all geometry.threads, ∀ index,
        request.item? = some index → cut.start block ≤ index ∧ index < cut.start (block + 1)) ∧
      Does block stages stops) :
    ∃ plan : Plan kernel geometry calls, ∀ block < geometry.blocks,
      Does block (plan.stages block) (plan.stops block) := by
  have hall : ∀ block, ∃ stages stops, block < geometry.blocks →
      Block.Runs kernel.callbacks geometry.threads
        (fun lane => kernel.program (geometry.context block lane)) ⟨slots, calls⟩ stages stops ∧
      (∀ request ∈ stages.flatMap fun stage => stage.all geometry.threads, ∀ index,
        request.item? = some index → cut.start block ≤ index ∧ index < cut.start (block + 1)) ∧
      Does block stages stops := by
    intro block
    by_cases hblock : block < geometry.blocks
    · obtain ⟨stages, stops, hdoes⟩ := h block hblock
      exact ⟨stages, stops, fun _ => hdoes⟩
    · exact ⟨[], fun _ => .finished (), fun hlt => absurd hlt hblock⟩
  choose stages stops hdoes using hall
  refine ⟨⟨slots, stages, stops, hslots, fun block hblock => (hdoes block hblock).1, ?_⟩,
    fun block hblock => (hdoes block hblock).2.2⟩
  rintro block hblock other hother hne index ⟨_, stage, hstage, request, hr, hitem⟩ stage' hstage'
    request' hr' hitem'
  obtain ⟨hle, hlt⟩ := (hdoes block hblock).2.1 request
    (List.mem_flatMap.mpr ⟨stage, hstage, hr⟩) index hitem
  obtain ⟨hle', hlt'⟩ := (hdoes other hother).2.1 request'
    (List.mem_flatMap.mpr ⟨stage', hstage', hr'⟩) index hitem'
  exact hne (cut.block_unique hle hlt hle' hlt')

section InOrder

variable {kernel : Kernel σ α} {calls : Array Nat} {config : LaunchConfig} {blocks : Nat}
  {store : Store α} (plan : Plan kernel (config.geometry blocks) calls)

/-- A launch past its checks. -/
theorem launchInOrder_eq_runBlocks (kernel : Kernel σ α) (order : Nat → List Nat)
    (hvalid : config.validate = .ok ()) (hblocks : 0 < blocks) (store : Store α) :
    launchInOrder order config kernel blocks config.width store =
      runBlocks kernel (config.geometry blocks) (order blocks)
        (store.launched config blocks) := by
  obtain ⟨hwidth, hmax⟩ := LaunchConfig.width_of_validate hvalid
  rw [launchInOrder_def, hvalid]
  simp only
  rw [if_neg (by omega), if_neg (by omega)]
  rfl

/-- **A launch whose blocks end well** answers so in any order, and leaves what its requests leave. -/
theorem launchInOrder_eq {order : Nat → List Nat} (hvalid : config.validate = .ok ())
    (hblocks : 0 < blocks) (horder : (order blocks).Perm (List.range blocks))
    (hcalls : store.journal.calls = calls)
    (hends : ∀ block < blocks, Block.EndWell config.width (plan.stops block)) :
    launchInOrder order config kernel blocks config.width store =
      (.ok (), (store.launched config blocks).after kernel.callbacks.element
        ((order blocks).flatMap plan.requests)) := by
  have hstore : (store.launched config blocks).journal.calls = calls := hcalls
  rw [launchInOrder_eq_runBlocks kernel order hvalid hblocks]
  apply plan.runBlocks_eq (horder.nodup_iff.mpr List.nodup_range)
  · exact fun block hblock => List.mem_range.mp (horder.mem_iff.mp hblock)
  · exact fun block _ => plan.ready_of_calls hstore block
  · exact fun block hblock => hends block (List.mem_range.mp (horder.mem_iff.mp hblock))

/-- **A launch one of whose blocks has a fault** fails in any order. -/
theorem launchInOrder_error {order : Nat → List Nat} (hvalid : config.validate = .ok ())
    (horder : (order blocks).Perm (List.range blocks)) (hcalls : store.journal.calls = calls)
    (hends : ∀ block < blocks, Block.EndWell config.width (plan.stops block) ∨
      Block.Faults config.width (plan.stops block))
    (hfaults : ∃ block < blocks, Block.Faults config.width (plan.stops block)) :
    ∃ failure store', launchInOrder order config kernel blocks config.width store =
      (.error failure, store') := by
  obtain ⟨faulty, hfaulty, hfault⟩ := hfaults
  have hstore : (store.launched config blocks).journal.calls = calls := hcalls
  rw [launchInOrder_eq_runBlocks kernel order hvalid (Nat.zero_lt_of_lt hfaulty)]
  apply plan.runBlocks_error (horder.nodup_iff.mpr List.nodup_range)
  · exact fun block hblock => List.mem_range.mp (horder.mem_iff.mp hblock)
  · exact fun block _ => plan.ready_of_calls hstore block
  · exact fun block hblock => hends block (List.mem_range.mp (horder.mem_iff.mp hblock))
  · exact ⟨faulty, horder.mem_iff.mpr (List.mem_range.mpr hfaulty), hfault⟩

end InOrder

end Plan

end BlockMachine
