import BlockMachine.Proofs.Compaction.Launch
import BlockMachine.Proofs.Launch.Hosts

/-!
# Compactions on hosts that cannot start every lane

A compaction has two launches, and each of them may stop at a block that cannot be started.  The launch that counts
has no part in the output; the one that writes leaves what the blocks before have written.

* `Reduction.reduceOn_cases`, `Compaction.offsetsOn_cases` — the launch that counts.
* `Compaction.writeOn_cases` — the launch that writes.
* `Compaction.compactFlagsOn_cases` — a compaction does what it does where every lane is started, or stops in the first
  launch, or in the second.
-/

set_option autoImplicit false

namespace BlockMachine

/-- The answer of a launch on a host that cannot start a block. -/
def Spawner.Refuses (spawner : Spawner) (config : LaunchConfig) (failure : Failure) : Prop :=
  ∃ block cause, spawner.refusal? config.width block = some cause ∧
    failure = .error (.launchFailed block cause)

/-- **A reduction** does what it does where every lane is started, or tells of one that is not. -/
theorem Reduction.reduceOn_cases {σ : Type} (spawner : Spawner) (order : Nat → List Nat) (config : LaunchConfig)
    (blank : σ) (op : σ → σ → Except Panic σ) (view : View σ) (cut : Decomposition) (store : Store σ) :
    reduceOn spawner order config blank op view cut store =
        reduceInOrder order config blank op view cut store ∨
      ∃ failure after, spawner.Refuses config failure ∧
        reduceOn spawner order config blank op view cut store = (.error failure, after) := by
  rw [reduceInOrder_def, reduceOn]
  by_cases hlength : view.length = cut.total
  · rw [if_neg (not_not_intro hlength), if_neg (not_not_intro hlength)]
    by_cases hroom : store.output.size < cut.count
    · rw [if_pos hroom, if_pos hroom]
      exact .inl rfl
    · rw [if_neg hroom, if_neg hroom]
      by_cases hcount : cut.count = 0
      · rw [if_pos hcount, if_pos hcount]
        exact .inl rfl
      · rw [if_neg hcount, if_neg hcount]
        refine (launchOn_cases rfl spawner order _).imp_right ?_
        rintro ⟨block, cause, after, hstops, hanswer⟩
        exact ⟨_, after, ⟨block, cause, hstops.refusal, rfl⟩, hanswer⟩
  · rw [if_pos hlength, if_pos hlength]
    exact .inl rfl

namespace Compaction

variable {α : Type} {config : LaunchConfig} {flags : View Nat}

/-- **The offsets** are what they are where every lane is started, or the host tells of one that is not. -/
theorem offsetsOn_cases (spawner : Spawner) (order : Nat → List Nat) (config : LaunchConfig) (flags : View Nat)
    (cut : Decomposition) (journal : Journal) :
    offsetsOn spawner order config flags cut journal = offsets order config flags cut journal ∨
      ∃ failure after, spawner.Refuses config failure ∧
        offsetsOn spawner order config flags cut journal = (.error failure, after) := by
  rw [offsets_def, offsetsOn]
  rcases Temporary.allocate config 8 cut.count 0 journal with ⟨failure | counts, early⟩
  · exact .inl rfl
  · rcases Reduction.reduceOn_cases spawner order config 0 Word.add flags cut ⟨counts, early⟩ with
      hsame | ⟨failure, after, hrefuses, hanswer⟩
    · exact .inl (by simp only [hsame])
    · refine .inr ⟨failure, after.journal, hrefuses, ?_⟩
      simp only [hanswer]

/-- **The writing launch** does what it does where every lane is started, or stops behind some of its blocks. -/
theorem writeOn_cases (spawner : Spawner) (order : Nat → List Nat) (config : LaunchConfig) (flags : View Nat)
    (task : Task α) (store : Store α) (hroom : task.offsets.back?.getD 0 ≤ store.output.size) :
    writeOn spawner order config flags task store = write order config flags task store ∨
      ∃ block cause after, StopsAt spawner (kernel flags task) (config.geometry task.cut.count)
          (order task.cut.count) (store.launched config task.cut.count) block cause after ∧
        writeOn spawner order config flags task store =
          (.error (.error (.launchFailed block cause)), after) := by
  simp only [write_def, writeOn, if_neg (Nat.not_lt.mpr hroom)]
  rcases launchOn_cases (show (kernel flags task).slots config.width = .ok _ from rfl) spawner order store with
    hsame | ⟨block, cause, after, hstops, hanswer⟩
  · rw [hsame]
    exact .inl rfl
  · rw [hanswer]
    exact .inr ⟨block, cause, after, hstops, rfl⟩

/-- What a compaction leaves that stops at a block of its writing launch. -/
structure StopsWriting (spawner : Spawner) (orders : Orders) (config : LaunchConfig) (element : Element α)
    (input : Placed α) (flags : View Nat) (address : Nat) (before : Store α)
    (result : Except Failure Nat × Store α) : Prop where
  reached : ∃ task store, Arrives orders config element input flags address before task store ∧
    ∃ block cause, StopsAt spawner (kernel flags task) (config.geometry task.cut.count)
        (orders.writing task.cut.count) (store.launched config task.cut.count) block cause result.2 ∧
      result.1 = .error (.error (.launchFailed block cause))

/-- A compaction of some elements that has cut its work, if the configuration is valid. -/
theorem compactFlagsOn_of_cut {orders : Orders} {element : Element α} {input : Placed α} {before : Store α}
    {cut : Decomposition} (hvalid : config.validate = .ok ()) (hempty : input.length ≠ 0)
    (hflags : flags.length = input.length) (hcut : Decomposition.forLaunch config input.length = .ok cut)
    (hosts : Hosts) (address : Nat) :
    compactFlagsOn hosts orders config element input flags address before =
      match offsetsOn hosts.counting orders.counting config flags cut before.journal with
      | (.error failure, journal) => (.error failure, { before with journal := journal })
      | (.ok found, journal) => writeOn hosts.writing orders.writing config flags
          ⟨element, input, found, BlockCopy.destination element before.output address, cut⟩
          { before with journal := journal } := by
  rw [compactFlagsOn, if_neg hempty, if_neg (not_not_intro hflags), hvalid]
  generalize Decomposition.forLaunch config input.length = found at hcut ⊢
  subst hcut
  rfl

section Cases

variable (hosts : Hosts) (orders : Orders) (element : Element α) {input : Placed α} (address : Nat)
  (before : Store α)

/-- The cases of a compaction that has cut its work. -/
theorem compactFlagsOn_cases_of_cut {cut : Decomposition} (hvalid : config.validate = .ok ())
    (hempty : input.length ≠ 0) (hlength : flags.length = input.length)
    (hcut : Decomposition.forLaunch config input.length = .ok cut) :
    compactFlagsOn hosts orders config element input flags address before =
        compactFlags orders config element input flags address before ∨
      (∃ failure after, hosts.counting.Refuses config failure ∧ after.output = before.output ∧
        compactFlagsOn hosts orders config element input flags address before = (.error failure, after)) ∨
      StopsWriting hosts.writing orders config element input flags address before
        (compactFlagsOn hosts orders config element input flags address before) := by
  rw [compactFlags_of_cut hvalid hempty hlength hcut, compactFlagsOn_of_cut hvalid hempty hlength hcut]
  rcases offsetsOn_cases hosts.counting orders.counting config flags cut before.journal with
    hsame | ⟨failure, journal, hrefuses, hanswer⟩
  · rw [hsame]
    rcases hoffsets : offsets orders.counting config flags cut before.journal with ⟨failure | found, journal⟩
    · exact .inl rfl
    by_cases hroom : found.back?.getD 0 ≤ before.output.size
    · have harrives : Arrives orders config element input flags address before
          ⟨element, input, found, BlockCopy.destination element before.output address, cut⟩
          ⟨before.output, journal⟩ :=
        ⟨hempty, hlength, hvalid, hcut, hoffsets, hroom, rfl, rfl⟩
      rcases writeOn_cases hosts.writing orders.writing config flags
        ⟨element, input, found, BlockCopy.destination element before.output address, cut⟩ ⟨before.output, journal⟩
        hroom with hwrite | ⟨block, cause, after, hstops, hanswer⟩
      · exact .inl hwrite
      · simp only [hanswer]
        exact .inr (.inr ⟨_, _, harrives, block, cause, hstops, rfl⟩)
    · left
      simp only [write_def, writeOn, if_pos (Nat.lt_of_not_le hroom)]
  · rw [hanswer]
    exact .inr (.inl ⟨failure, ⟨before.output, journal⟩, hrefuses, rfl, rfl⟩)

/-- **A compaction** does what it does where every lane is started, or stops in the launch that counts and leaves
its output, or stops in the launch that writes. -/
theorem compactFlagsOn_cases (config : LaunchConfig) (input : Placed α) (flags : View Nat) :
    compactFlagsOn hosts orders config element input flags address before =
        compactFlags orders config element input flags address before ∨
      (∃ failure after, hosts.counting.Refuses config failure ∧ after.output = before.output ∧
        compactFlagsOn hosts orders config element input flags address before = (.error failure, after)) ∨
      StopsWriting hosts.writing orders config element input flags address before
        (compactFlagsOn hosts orders config element input flags address before) := by
  by_cases hempty : input.length = 0
  · rw [compactFlags_def, compactFlagsOn, if_pos hempty, if_pos hempty]
    exact .inl rfl
  by_cases hlength : flags.length = input.length
  swap
  · rw [compactFlags_def, compactFlagsOn, if_neg hempty, if_neg hempty, if_pos hlength, if_pos hlength]
    exact .inl rfl
  cases hvalid : config.validate with
  | error problem =>
    left
    rw [compactFlags_def, compactFlagsOn, hvalid]
    rfl
  | ok _ =>
    cases hcut : Decomposition.forLaunch config input.length with
    | error panic =>
      left
      rw [compactFlags_def, compactFlagsOn, hvalid]
      simp only [Failure.ofProblem, hcut]
    | ok cut => exact compactFlagsOn_cases_of_cut hosts orders element address before hvalid hempty hlength hcut

end Cases

end Compaction

end BlockMachine
