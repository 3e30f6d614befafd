import BlockMachine.Proofs.Compaction.Launch

/-!
# The way to the writing launch

A compaction comes to its writing launch, or fails before it without a change of its output.  Nothing but the check
in front of that launch finds the output too small: the launches do not look at its size, and the offsets are worked
out in an output of their own.

* `Compaction.Roomy` — a call that does not find its output too small; all launches are.
* `Compaction.arrives_or_fails` — a compaction comes to its writing launch, or fails before it.
* `Compaction.arrives_or_output_eq` — the output is then as it was.
-/

set_option autoImplicit false

namespace BlockMachine

namespace Compaction

variable {α : Type}

/-! ## Calls with room -/

/-- A failure for another reason than a small output. -/
def LeavesRoom : Failure → Prop
  | .error (.outputTooSmall _ _) => False
  | _ => True

/-- A call that does not find its output too small. -/
def Roomy {ρ : Type} : Except Failure ρ → Prop
  | .error failure => LeavesRoom failure
  | .ok _ => True

theorem runBlocks_roomy {σ : Type} (kernel : Kernel σ α) (geometry : Geometry) (order : List Nat)
    (store : Store α) : Roomy (runBlocks kernel geometry order store).1 := by
  induction order generalizing store with
  | nil => trivial
  | cons block rest ih =>
    rw [runBlocks_cons, runBlock_def]
    cases kernel.slots geometry.threads with
    | error _ => trivial
    | ok slots =>
      simp only
      cases Block.run kernel.callbacks (kernel.lanes geometry block) ⟨slots, store⟩ with
      | mk ending machine =>
        cases ending with
        | faulted _ => trivial
        | deadlock => trivial
        | complete => exact ih machine.store
        | abandoned => exact ih machine.store

/-- A launch does not look at the size of its output, -/
theorem launchInOrder_roomy {σ : Type} (order : Nat → List Nat) (config : LaunchConfig) (kernel : Kernel σ α)
    (blocks threads : Nat) (store : Store α) :
    Roomy (launchInOrder order config kernel blocks threads store).1 := by
  rw [launchInOrder_def]
  cases config.validate with
  | error _ => trivial
  | ok _ =>
    simp only
    split
    · trivial
    split
    · trivial
    · exact runBlocks_roomy _ _ _ _

/-- and the blocks that count have an output of their own. -/
theorem offsets_roomy (order : Nat → List Nat) (config : LaunchConfig) (flags : View Nat)
    (cut : Decomposition) (journal : Journal) : Roomy (offsets order config flags cut journal).1 := by
  rw [offsets_def, Temporary.allocate]
  cases Temporary.isRefused config 8 cut.count with
  | true => trivial
  | false =>
    simp only [Bool.false_eq_true, if_false]
    generalize hcounts : (⟨Array.replicate cut.count 0, _⟩ : Store Nat) = counts
    have hsize : counts.output.size = cut.count := by rw [← hcounts, Array.size_replicate]
    have hreduce : Roomy (Reduction.reduceInOrder order config 0 Word.add flags cut counts).1 := by
      rw [Reduction.reduceInOrder_def]
      split
      · trivial
      split
      · omega
      split
      · trivial
      · exact launchInOrder_roomy _ _ _ _ _ _
    cases hcase : Reduction.reduceInOrder order config 0 Word.add flags cut counts with
    | mk result after =>
      rw [hcase] at hreduce
      cases result with
      | error failure => exact hreduce
      | ok _ =>
        simp only
        cases (HostScan.inPlace Word.add after.output.toList).result <;> trivial

/-! ## Compactions -/

/-- **A compaction comes to its writing launch, or fails before it.**  It finds its output too small once it has the
offsets. -/
theorem arrives_or_fails (orders : Orders) (config : LaunchConfig) (element : Element α) {input : Placed α}
    (flags : View Nat) (address : Nat) (before : Store α) (hempty : input.length ≠ 0) :
    (∃ task store, Arrives orders config element input flags address before task store) ∨
      ∃ failure journal, compactFlags orders config element input flags address before =
          (.error failure, { before with journal := journal }) ∧
        ∀ required available, failure = .error (.outputTooSmall required available) →
          flags.length = input.length ∧ config.validate = .ok () ∧
          ∃ cut found, Decomposition.forLaunch config input.length = .ok cut ∧
            offsets orders.counting config flags cut before.journal = (.ok found, journal) ∧
            required = found.back?.getD 0 := by
  by_cases hlength : flags.length = input.length
  · cases hvalid : config.validate with
    | error problem =>
      refine .inr ⟨.error (.invalidConfig problem), before.journal, ?_, by rintro _ _ ⟨⟩⟩
      rw [compactFlags_def, if_neg hempty, if_neg (not_not_intro hlength), hvalid]
      rfl
    | ok _ =>
      cases hcut : Decomposition.forLaunch config input.length with
      | error panic =>
        refine .inr ⟨.panic panic, before.journal, ?_, by rintro _ _ ⟨⟩⟩
        rw [compactFlags_def, if_neg hempty, if_neg (not_not_intro hlength), hvalid]
        simp only [Failure.ofProblem, hcut]
      | ok cut =>
        rw [compactFlags_of_cut hvalid hempty hlength hcut]
        cases hoffsets : offsets orders.counting config flags cut before.journal with
        | mk result journal =>
          cases result with
          | error failure =>
            refine .inr ⟨failure, journal, rfl, fun required available heq => ?_⟩
            have hroomy := offsets_roomy orders.counting config flags cut before.journal
            rw [hoffsets, heq] at hroomy
            exact hroomy.elim
          | ok found =>
            by_cases hroom : found.back?.getD 0 ≤ before.output.size
            · exact .inl ⟨⟨element, input, found, BlockCopy.destination element before.output address, cut⟩,
                ⟨before.output, journal⟩, hempty, hlength, hvalid, hcut, hoffsets, hroom, rfl, rfl⟩
            · refine .inr ⟨_, journal, if_pos (Nat.lt_of_not_le hroom), fun required available heq => ?_⟩
              cases heq
              exact ⟨hlength, rfl, cut, found, rfl, hoffsets, rfl⟩
  · refine .inr ⟨.panic (.lengthsDiffer flags.length input.length), before.journal, ?_, by rintro _ _ ⟨⟩⟩
    rw [compactFlags_def, if_neg hempty, if_pos hlength]

/-- **A compaction comes to its writing launch, or leaves its output as it is.** -/
theorem arrives_or_output_eq (orders : Orders) (config : LaunchConfig) (element : Element α)
    (input : Placed α) (flags : View Nat) (address : Nat) (before : Store α) :
    (∃ task store, Arrives orders config element input flags address before task store) ∨
      (compactFlags orders config element input flags address before).2.output = before.output := by
  by_cases hempty : input.length = 0
  · exact .inr (by rw [compactFlags_def, if_pos hempty])
  · refine (arrives_or_fails orders config element flags address before hempty).imp_right ?_
    rintro ⟨failure, journal, hfails, _⟩
    rw [hfails]

end Compaction

end BlockMachine
