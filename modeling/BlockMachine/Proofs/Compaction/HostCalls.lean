import BlockMachine.Proofs.Compaction.Returns

/-!
# All calls that are given a configuration

* `LaunchConfig.withCount` — a configuration with another number of multiprocessors.
* `Compaction.compactFlags_withCount` — compactions do not look at that number.
* `Compaction.Answering`, `Compaction.Overflowing`, `Compaction.Agreeing` — what the calls answer, depending on
  the default of the block limit.
* `Compaction.host_calls_answer` — one of the first two holds for every valid configuration; and if a block
  limit is set, then the number of multiprocessors has no other influence.
-/

set_option autoImplicit false

namespace BlockMachine

variable {α S : Type}

namespace LaunchConfig

variable {config : LaunchConfig}

/-- The configuration with another number of multiprocessors. -/
def withCount (config : LaunchConfig) (count : UInt64) : LaunchConfig :=
  { config with multiprocessors := count }

/-- A limit that is set is the block limit, if also the default is a word. -/
theorem blockLimit_of_maxBlocks {limit : UInt64} (hlimit : config.maxBlocks = some limit)
    (h : config.DerivesLimit) : config.blockLimit = .ok limit.toNat := by
  unfold blockLimit
  rw [Word.mul_eq_ok h, hlimit]
  rfl

end LaunchConfig

namespace Compaction

/-! ## Another number of multiprocessors -/

section Count

variable {config : LaunchConfig} {count : UInt64} (hvalid : config.validate = .ok ())
  (hother : (config.withCount count).validate = .ok ())

include hvalid hother

theorem launchInOrder_withCount {σ : Type} (order : Nat → List Nat) (kernel : Kernel σ α)
    (blocks threads : Nat) (store : Store α) :
    launchInOrder order (config.withCount count) kernel blocks threads store =
      launchInOrder order config kernel blocks threads store := by
  rw [launchInOrder_def, launchInOrder_def, hvalid, hother]
  rfl

theorem offsets_withCount (order : Nat → List Nat) (flags : View Nat) (cut : Decomposition)
    (journal : Journal) : offsets order (config.withCount count) flags cut journal =
      offsets order config flags cut journal := by
  have hreduce : ∀ store : Store Nat,
      Reduction.reduceInOrder order (config.withCount count) 0 Word.add flags cut store =
        Reduction.reduceInOrder order config 0 Word.add flags cut store := by
    intro store
    rw [Reduction.reduceInOrder_def, launchInOrder_withCount hvalid hother]
    rfl
  rw [offsets_def]
  simp only [hreduce]
  rfl

theorem write_withCount (order : Nat → List Nat) (flags : View Nat) (task : Task α) (store : Store α) :
    write order (config.withCount count) flags task store = write order config flags task store := by
  rw [write_def, launchInOrder_withCount hvalid hother]
  rfl

/-- **The number of multiprocessors has no influence on a compaction** that cuts its work in the same way. -/
theorem compactFlags_withCount {input : Placed α}
    (hcut : Decomposition.forLaunch (config.withCount count) input.length =
      Decomposition.forLaunch config input.length) (orders : Orders) (element : Element α)
    (flags : View Nat) (address : Nat) (store : Store α) :
    compactFlags orders (config.withCount count) element input flags address store =
      compactFlags orders config element input flags address store := by
  rw [compactFlags_def, compactFlags_def]
  simp only [hvalid, hother, hcut, offsets_withCount hvalid hother, write_withCount hvalid hother]

end Count

/-! ## All calls -/

section All

variable (orders : Orders) (config : LaunchConfig) (element : Element α) (blank : α) (input : Placed α)
  (stencil : Array S) (selector : Selector S) (mask : Mask) (address : Nat) (store : Store α)

/-- All calls that are given a configuration answer; only a clone of the blank can still panic. -/
structure Answering : Prop where
  limit : ∃ blocks, config.blockLimit = .ok blocks ∧ 0 < blocks
  cut : ∀ n, ∃ cut, Decomposition.forLaunch config n = .ok cut
  copies : Returns (copyIfInOrder orders config element input stencil selector address store).1
  masks : Returns (copyIfMask config element input mask address store).1
  dense : ReturnsWith element blank (compactValid config element blank input mask store.journal).1

/-- The calls panic that come to the block limit, and leave their output alone; the others answer. -/
structure Overflowing : Prop where
  limit : config.blockLimit = .error (.overflow .multiply)
  cut : ∀ n, Decomposition.forLaunch config n = .error (.overflow .multiply)
  copies : if 0 < input.length ∧ input.length ≤ stencil.size then
      copyIfInOrder orders config element input stencil selector address store =
        (.error (.panic (.overflow .multiply)), store)
    else Returns (copyIfInOrder orders config element input stencil selector address store).1
  masks : if 0 < input.length ∧ input.length ≤ mask.length then
      copyIfMask config element input mask address store =
        (.error (.panic (.overflow .multiply)), store)
    else Returns (copyIfMask config element input mask address store).1
  dense : if 0 < input.length ∧ input.length ≤ mask.length then
      (compactValid config element blank input mask store.journal).1 =
          .error (.panic (.overflow .multiply)) ∨
        ∃ panic, element.clone blank = .error panic ∧
          (compactValid config element blank input mask store.journal).1 = .error (.panic panic)
    else ReturnsWith element blank (compactValid config element blank input mask store.journal).1

/-- The calls answer the same with another configuration, and leave the same. -/
structure Agreeing (other : LaunchConfig) : Prop where
  limit : other.blockLimit = config.blockLimit
  cut : ∀ n, Decomposition.forLaunch other n = Decomposition.forLaunch config n
  copies : copyIfInOrder orders other element input stencil selector address store =
    copyIfInOrder orders config element input stencil selector address store
  masks : copyIfMask other element input mask address store =
    copyIfMask config element input mask address store
  dense : compactValid other element blank input mask store.journal =
    compactValid config element blank input mask store.journal

variable {orders config element blank input stencil selector mask address store}

theorem answering (hvalid : config.validate = .ok ()) (hproduct : config.DerivesLimit)
    (hlength : input.length < Word.limit)
    (hcounting : ∀ blocks, (orders.counting blocks).Perm (List.range blocks)) :
    Answering orders config element blank input stencil selector mask address store := by
  obtain ⟨blocks, hlimit, hpos⟩ := LaunchConfig.blockLimit_of_validate hvalid hproduct
  refine ⟨⟨blocks, hlimit, hpos⟩, fun n => ⟨_, by unfold Decomposition.forLaunch; rw [hlimit]; rfl⟩,
    copyIfInOrder_returns hlength hproduct hcounting stencil selector address store,
    copyIfMask_returns hlength hproduct mask address store,
    compactValid_returns hlength (copyIfMask_returns hlength hproduct mask 0) blank store.journal⟩

theorem overflowing (hvalid : config.validate = .ok ()) (hproduct : ¬ config.DerivesLimit)
    (hlength : input.length < Word.limit) :
    Overflowing orders config element blank input stencil selector mask address store := by
  have hpanics : 0 < input.length ∧ input.length ≤ mask.length → ∀ (address : Nat) (store : Store α),
      copyIfMask config element input mask address store =
        (.error (.panic (.overflow .multiply)), store) := by
    rintro ⟨hpos, hle⟩ address store
    rw [copyIfMask_eq config element hle]
    exact compactFlags_overflows hvalid hproduct (Nat.ne_of_gt hpos) (Nat.min_eq_left hle) address store
  have hreturns : ¬ (0 < input.length ∧ input.length ≤ mask.length) → ∀ (address : Nat) (store : Store α),
      Returns (copyIfMask config element input mask address store).1 := by
    intro hnot address store
    by_cases hle : input.length ≤ mask.length
    · rw [copyIfMask_eq config element hle, compactFlags_of_empty (by omega)]
      exact .ok 0
    · rw [copyIfMask_def, if_pos (Nat.lt_of_not_le hle)]
      exact .refused _
  refine ⟨LaunchConfig.blockLimit_error hproduct, Decomposition.forLaunch_error hproduct, ?_, ?_, ?_⟩
  · split
    · next h =>
      rw [copyIfInOrder_eq orders config element h.2]
      exact compactFlags_overflows hvalid hproduct (Nat.ne_of_gt h.1) (length_stencilFlags h.2 selector)
        address store
    · next h =>
      by_cases hle : input.length ≤ stencil.size
      · rw [copyIfInOrder_eq orders config element hle, compactFlags_of_empty (by omega)]
        exact .ok 0
      · rw [copyIfInOrder_def, if_pos (Nat.lt_of_not_le hle)]
        exact .refused _
  · split
    · next h => exact hpanics h address store
    · next h => exact hreturns h address store
  · split
    · next h =>
      unfold compactValid
      cases hfilled : filled element blank (mask.take input.length).countOnes store.journal with
      | mk result journal =>
        cases result with
        | error panic => exact .inr ⟨panic, clone_of_filled hfilled, by simp only [hfilled]⟩
        | ok dense => exact .inl (by simp only [hfilled, hpanics h 0 ⟨dense, journal⟩])
    · next h => exact compactValid_returns hlength (hreturns h 0) blank store.journal

theorem agreeing {count : UInt64} (hvalid : config.validate = .ok ())
    (hother : (config.withCount count).validate = .ok ()) (hlimit : config.maxBlocks.isSome)
    (hproduct : config.DerivesLimit) (hproduct' : (config.withCount count).DerivesLimit) :
    Agreeing orders config element blank input stencil selector mask address store
      (config.withCount count) := by
  obtain ⟨limit, hlimit⟩ := Option.isSome_iff_exists.mp hlimit
  have hsame : (config.withCount count).blockLimit = config.blockLimit := by
    rw [LaunchConfig.blockLimit_of_maxBlocks hlimit hproduct,
      LaunchConfig.blockLimit_of_maxBlocks (show (config.withCount count).maxBlocks = _ from hlimit)
        hproduct']
  have hcut : ∀ n, Decomposition.forLaunch (config.withCount count) n =
      Decomposition.forLaunch config n := by
    intro n
    unfold Decomposition.forLaunch
    rw [hsame]
    rfl
  have hflags := fun orders => compactFlags_withCount hvalid hother (hcut input.length) orders element
  have hmask : ∀ address store, copyIfMask (config.withCount count) element input mask address store =
      copyIfMask config element input mask address store := by
    intro address store
    rw [copyIfMask_def, hflags]
    rfl
  refine ⟨hsame, hcut, ?_, hmask address store, ?_⟩
  · rw [copyIfInOrder_def, copyIfInOrder_def, hflags]
  · unfold compactValid
    simp only [hmask]

/-- **What the calls on the host answer that are given a valid configuration**: they all answer if the default
of the block limit is a word, and otherwise those panic that come to the block limit, also if a limit is
set.  If it is, the number of multiprocessors has no other influence. -/
theorem host_calls_answer (hvalid : config.validate = .ok ()) (hlength : input.length < Word.limit)
    (hcounting : ∀ blocks, (orders.counting blocks).Perm (List.range blocks)) :
    (config.DerivesLimit →
      Answering orders config element blank input stencil selector mask address store) ∧
    (¬ config.DerivesLimit →
      Overflowing orders config element blank input stencil selector mask address store) ∧
    ∀ count, (config.withCount count).validate = .ok () → config.maxBlocks.isSome →
      config.DerivesLimit → (config.withCount count).DerivesLimit →
        Agreeing orders config element blank input stencil selector mask address store
          (config.withCount count) :=
  ⟨fun hproduct => answering hvalid hproduct hlength hcounting,
    fun hproduct => overflowing hvalid hproduct hlength,
    fun _ hother hlimit hproduct hproduct' => agreeing hvalid hother hlimit hproduct hproduct'⟩

end All

/-- One block at most, and so many multiprocessors that ten blocks for each are more than a word can tell. -/
def crowdedConfig : LaunchConfig := {
  threadsPerBlock := 1, multiprocessors := 0x8000000000000000, maxBlocks := some 1 }

/-- One element that is kept: with that many multiprocessors the call panics, although no more than the limit of
one block is asked for, and with one multiprocessor it answers. -/
theorem host_calls_answer_crowded :
    let call := fun config => copyIf config (.raw 2) ⟨#[#v[1, 0]], 0⟩ #[()] (.ofValue fun _ => true) 0
      ⟨#[#v[0, 0]], .start 1⟩
    crowdedConfig.validate = .ok () ∧ call crowdedConfig =
      (.error (.panic (.overflow .multiply)), ⟨#[#v[0, 0]], .start 1⟩) ∧
    (crowdedConfig.withCount 1).validate = .ok () ∧ Returns (call (crowdedConfig.withCount 1)).1 := by
  intro call
  have hproduct : ¬ crowdedConfig.DerivesLimit := by unfold LaunchConfig.DerivesLimit; decide
  have hproduct' : (crowdedConfig.withCount 1).DerivesLimit := by unfold LaunchConfig.DerivesLimit; decide
  have hcrowded : Overflowing (.ofConfig crowdedConfig) crowdedConfig (.raw 2) #v[0, 0]
      ⟨#[#v[1, 0]], 0⟩ #[()] (.ofValue fun _ => true) ⟨#[], 0, 0, by decide⟩ 0
      ⟨#[#v[0, 0]], .start 1⟩ :=
    (host_calls_answer rfl (by decide) crowdedConfig.scheduling.perm_order).2.1 hproduct
  have hone : Answering (.ofConfig (crowdedConfig.withCount 1)) (crowdedConfig.withCount 1) (.raw 2)
      #v[0, 0] ⟨#[#v[1, 0]], 0⟩ #[()] (.ofValue fun _ => true) ⟨#[], 0, 0, by decide⟩ 0
      ⟨#[#v[0, 0]], .start 1⟩ :=
    (host_calls_answer rfl (by decide) (crowdedConfig.withCount 1).scheduling.perm_order).1 hproduct'
  have hcopies := hcrowded.copies
  rw [if_pos (by decide)] at hcopies
  exact ⟨rfl, hcopies, rfl, hone.copies⟩

end Compaction

end BlockMachine
