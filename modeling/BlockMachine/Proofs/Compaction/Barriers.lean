import BlockMachine.Compaction
import BlockMachine.Proofs.Launch.Barriers

/-!
# The barriers of the two launches

How many barriers a lane takes follows from its interval and the width of the block alone.  Neither the flags
nor what becomes of the clones matters.

* `Reduction.takes_program`, `Reduction.inStep` — the launch that counts.
* `Compaction.takes_program`, `Compaction.inStep` — the launch that writes.
-/

set_option autoImplicit false

namespace BlockMachine

open BlockScan Lane

variable {σ α : Type}

namespace Reduction

/-- The barriers of some chunks: one before the scan of each, those of the scan, and one behind it. -/
def barriers (list : List (Nat × Nat)) : Nat :=
  (list.map fun chunk => 2 * roundCount chunk.2 + 2).sum

theorem takes_carryOver (carry : Option σ) (total : σ) : (carryOver carry total).Takes 0 := by
  cases carry with
  | none => rfl
  | some carry => exact fun _ => rfl

theorem takes_chunk (context : LaneContext) (slots : Nat) (carry : Option σ) (start n : Nat) :
    (chunk context slots carry start n : Lane σ σ (Option σ)).Takes (2 * roundCount n + 2) := by
  have hlast : ∀ carry : Option σ, (do sync; return carry : Lane σ σ (Option σ)).Takes 1 :=
    fun _ => ⟨0, rfl, rfl⟩
  refine takes_ite (fun _ => takes_ofExcept_bind fun index _ value _ => ?_) fun _ => ?_
  -- with or without an item of its own, a lane goes on in the same way
  all_goals
    refine takes_sync_bind ((takes_scanFirst context slots n).bind fun _ => ?_)
    refine takes_ite (fun _ => takes_ofExcept_bind fun last _ total => ?_) fun _ => hlast _
    exact (takes_carryOver carry total).quiet_bind hlast

theorem takes_overChunks (context : LaneContext) (slots : Nat) (carry : Option σ)
    (list : List (Nat × Nat)) :
    (overChunks context slots carry list : Lane σ σ (Option σ)).Takes (barriers list) := by
  induction list generalizing carry with
  | nil => rfl
  | cons head rest ih =>
    obtain ⟨start, n⟩ := head
    exact (takes_chunk context slots carry start n).bind fun carry => ih carry

/-- **The barriers of a lane of a reduction** are those of the chunks of its interval. -/
theorem takes_program {cut : Decomposition} {context : LaneContext} {interval : Interval}
    (hinterval : cut.interval context.block = .ok interval) (output : WriteView) :
    (program cut output context : Lane σ σ Unit).Takes (barriers (chunks interval context.blockSize)) := by
  refine takes_ofExcept_bind fun found hfound => ?_
  obtain rfl := Except.ok.inj (hinterval.symm.trans hfound)
  have hchunks := takes_overChunks context context.blockSize (none : Option σ)
    (chunks interval context.blockSize)
  refine hchunks.bind_quiet fun carry => ?_
  cases carry with
  | none => rfl
  | some total => exact takes_ite (fun _ => BlockCopy.takes_write ..) fun _ => rfl

/-- **The lanes of a reduction are in step**, also those that cannot work out their interval. -/
theorem inStep (blank : σ) (op : σ → σ → Except Panic σ) (view : View σ) (cut : Decomposition)
    (length : Nat) (geometry : Geometry) : (kernel blank op view cut length).InStep geometry := by
  refine ⟨⟨_, rfl⟩, fun block => ?_⟩
  cases hinterval : cut.interval block with
  | ok interval =>
    refine ⟨barriers (chunks interval geometry.threads), fun lane _ => ?_⟩
    have hcontext : cut.interval (geometry.context block lane).block = .ok interval := hinterval
    exact takes_program hcontext _
  | error panic =>
    refine ⟨0, fun lane _ => takes_ofExcept_bind fun interval hfound => ?_⟩
    cases hinterval.symm.trans hfound

end Reduction

namespace Compaction

theorem takes_scatter (task : Task α) (context : LaneContext) (outFirst index : Nat) :
    (scatter task context outFirst index).Takes 0 := fun _ =>
  takes_ofExcept_bind fun _ _ => takes_ofExcept_bind fun place _ => takes_ofExcept_bind fun _ _ _ =>
    BlockCopy.takes_write task.output place _

/-- The barriers of a full chunk. -/
theorem takes_fullChunk (task : Task α) (context : LaneContext) (outFirst base : Nat) :
    (fullChunk task context outFirst base).Takes (2 * roundCount context.blockSize + 2) := by
  have hlast : ∀ selected, (do
      let outNext ← Lane.ofExcept (Word.add outFirst selected)
      sync
      return outNext : Lane Nat α Nat).Takes 1 :=
    fun _ => takes_ofExcept_bind fun _ _ => ⟨0, rfl, rfl⟩
  refine takes_ofExcept_bind fun index _ flag _ => takes_sync_bind
    ((takes_scanFirst context context.blockSize context.blockSize).bind fun _ =>
      takes_ofExcept_bind fun last _ selected => ?_)
  refine takes_ite (fun _ => takes_ofExcept_bind fun source _ => ?_) fun _ =>
    takes_ite (fun _ => ?_) fun _ => hlast selected
  · exact (BlockCopy.takes_copy task.element context source task.output outFirst).quiet_bind
      fun _ => hlast selected
  · exact (takes_scatter task context outFirst index).quiet_bind fun _ => hlast selected

/-- The barriers of full chunks and of what comes after them. -/
theorem takes_fullChunks (task : Task α) (context : LaneContext) {later : Nat}
    {rest : Nat × Nat → Lane Nat α Unit} (count outFirst base : Nat)
    (hrest : ∀ outLast, (rest (outLast, base + count * context.blockSize)).Takes later) :
    (fullChunks task context count outFirst base >>= rest).Takes
      (count * (2 * roundCount context.blockSize + 2) + later) := by
  induction count generalizing outFirst base with
  | zero =>
    rw [Nat.zero_mul, Nat.zero_add]
    rw [Nat.zero_mul, Nat.add_zero] at hrest
    exact hrest outFirst
  | succ count ih =>
    have hwidth : base + (count + 1) * context.blockSize =
        base + context.blockSize + count * context.blockSize := by
      rw [Nat.succ_mul, Nat.add_assoc, Nat.add_comm context.blockSize]
    rw [hwidth] at hrest
    have hall := (takes_fullChunk task context outFirst base).bind fun outNext =>
      ih outNext (base + context.blockSize) hrest
    rw [Nat.succ_mul, Nat.add_comm (count * _), Nat.add_assoc]
    show (((fullChunk task context outFirst base).bind _).bind rest).Takes _
    rw [bind_bind]
    exact hall

/-- The barriers of the chunk at the end of an interval. -/
theorem takes_lastChunk (task : Task α) (context : LaneContext) (outFirst base stop : Nat) :
    (lastChunk task context outFirst base stop).Takes (2 * roundCount context.blockSize + 1) := by
  have hflag : ∀ index, (lastFlag index stop : Lane Nat α Nat).Takes 0 :=
    fun index => takes_ite (fun _ _ => rfl) fun _ => rfl
  refine takes_ofExcept_bind fun index _ => (hflag index).quiet_bind fun flag _ => takes_sync_bind
    ((takes_scanFirst context context.blockSize context.blockSize).bind_quiet fun _ => ?_)
  exact takes_ite (fun _ => takes_scatter task context outFirst index) fun _ => rfl

/-- The barriers of an interval: those of its full chunks, and of what is left behind them. -/
def barriers (interval : Interval) (width : Nat) : Nat :=
  interval.length / width * (2 * roundCount width + 2) +
    if interval.start + interval.length / width * width < interval.stop then 2 * roundCount width + 1
    else 0

/-- **The barriers of a lane of the writing launch** follow from its interval and the width alone. -/
theorem takes_program {task : Task α} {context : LaneContext} {interval : Interval}
    (hinterval : task.cut.interval context.block = .ok interval) :
    (program task context).Takes (barriers interval context.blockSize) := by
  refine takes_ofExcept_bind fun found hfound => takes_ofExcept_bind fun outFirst _ => ?_
  obtain rfl := Except.ok.inj (hinterval.symm.trans hfound)
  refine takes_fullChunks task context _ outFirst interval.start fun outLast => ?_
  show (if _ then _ else _ : Lane Nat α Unit).Takes _
  split
  · exact takes_lastChunk ..
  · rfl

/-- **The lanes of the writing launch are in step**, also those that cannot work out their interval. -/
theorem inStep (flags : View Nat) (task : Task α) (geometry : Geometry) :
    (kernel flags task).InStep geometry := by
  refine ⟨⟨_, rfl⟩, fun block => ?_⟩
  cases hinterval : task.cut.interval block with
  | ok interval =>
    refine ⟨barriers interval geometry.threads, fun lane _ => ?_⟩
    have hcontext : task.cut.interval (geometry.context block lane).block = .ok interval := hinterval
    exact takes_program hcontext
  | error panic =>
    refine ⟨0, fun lane _ => takes_ofExcept_bind fun interval hfound => ?_⟩
    cases hinterval.symm.trans hfound

end Compaction

end BlockMachine
