import BlockMachine.Reduction
import BlockMachine.Proofs.Decomposition
import BlockMachine.Proofs.Lane.Only

/-!
# What the lanes of a reduction can ask for

Whatever they are answered, they ask only for items that there are, use their slots, and write.

* `Decomposition.stop_le_of_interval` — an interval that is given has only indices that there are.
* `BlockScan.only_scanFirst` — a scan keeps to the slots.
* `Reduction.only_program` — a lane of a reduction.
-/

set_option autoImplicit false

namespace BlockMachine

open Lane

variable {σ α β : Type}

/-- An interval that is given has only indices that there are. -/
theorem Decomposition.stop_le_of_interval {cut : Decomposition} {block : Nat} {interval : Interval}
    (h : cut.interval block = .ok interval) : interval.stop ≤ cut.total := by
  obtain ⟨hblock, rfl⟩ := eq_of_interval h
  exact start_le_total hblock

namespace BlockScan

variable {allowed : Request σ α → Prop}

/-- A scan keeps to the slots. -/
theorem only_scanFirst (hlocal : ∀ request : Request σ α, request.Local → allowed request)
    (context : LaneContext) (slots n : Nat) : (scanFirst context slots n : Lane σ α Unit).Only allowed := by
  refine only_ite (fun _ => only_forEach _ fun distance _ => ?_) fun _ => trivial
  refine only_ite (fun _ => ?_) fun _ => trivial
  exact ⟨hlocal _ trivial, fun _ => ⟨hlocal _ trivial, fun _ => ⟨hlocal _ trivial,
    fun _ => ⟨hlocal _ trivial, fun _ => trivial⟩⟩⟩⟩

end BlockScan

namespace Reduction

variable {allowed : Request σ σ → Prop} (hlocal : ∀ request : Request σ σ, request.Local → allowed request)

include hlocal

theorem only_carryOver (carry : Option σ) (total : σ) : (carryOver carry total).Only allowed := by
  cases carry with
  | none => trivial
  | some carry => exact ⟨hlocal _ trivial, fun _ => trivial⟩

theorem only_chunk (context : LaneContext) (slots : Nat) (carry : Option σ) {start n : Nat}
    (hfetch : ∀ lane < n, allowed (.fetch (start + lane))) :
    (chunk context slots carry start n : Lane σ σ (Option σ)).Only allowed := by
  have hlast : ∀ carry : Option σ, (do sync; return carry : Lane σ σ (Option σ)).Only allowed :=
    fun _ => trivial
  have hrest : (do
      sync
      BlockScan.scanFirst context slots n
      let carry ← if context.lane = 0 then do
          let last ← Lane.ofExcept (Word.sub n 1)
          let total ← Lane.load last
          carryOver carry total
        else pure carry
      sync
      return carry : Lane σ σ (Option σ)).Only allowed := by
    refine (BlockScan.only_scanFirst hlocal context slots n).bind fun _ => ?_
    refine only_ite (fun _ => only_ofExcept_bind fun last _ => ⟨hlocal _ trivial, fun total => ?_⟩)
      fun _ => hlast _
    exact (only_carryOver hlocal carry total).bind hlast
  refine only_ite (fun hlane => only_ofExcept_bind fun index hindex => ?_) fun _ => hrest
  rw [Word.eq_of_add hindex]
  exact ⟨hfetch _ hlane, fun value => ⟨hlocal _ trivial, fun _ => hrest⟩⟩

theorem only_overChunks (context : LaneContext) (slots : Nat) (carry : Option σ) {list : List (Nat × Nat)}
    (hfetch : ∀ chunk ∈ list, ∀ lane < chunk.2, allowed (.fetch (chunk.1 + lane))) :
    (overChunks context slots carry list : Lane σ σ (Option σ)).Only allowed := by
  induction list generalizing carry with
  | nil => trivial
  | cons head rest ih =>
    obtain ⟨start, n⟩ := head
    obtain ⟨hhead, hrest⟩ := List.forall_mem_cons.mp hfetch
    exact (only_chunk hlocal context slots carry hhead).bind fun carry => ih carry hrest

/-- **A lane of a reduction** asks only for items that there are, uses the slots, and writes. -/
theorem only_program {cut : Decomposition} (hfetch : ∀ index < cut.total, allowed (.fetch index))
    (hwrite : ∀ slot value, allowed (.write slot value)) (output : WriteView) (context : LaneContext) :
    (program cut output context : Lane σ σ Unit).Only allowed := by
  refine only_ofExcept_bind fun interval hinterval => ?_
  have hstop := Decomposition.stop_le_of_interval hinterval
  have hchunks : ∀ chunk ∈ chunks interval context.blockSize, ∀ lane < chunk.2,
      allowed (.fetch (chunk.1 + lane)) := by
    intro chunk hchunk lane hlane
    obtain ⟨turn, _, rfl⟩ := List.mem_map.mp hchunk
    simp only at hlane ⊢
    exact hfetch _ (by omega)
  refine (only_overChunks hlocal context context.blockSize none hchunks).bind fun carry => ?_
  cases carry with
  | none => trivial
  | some total =>
    exact only_ite (fun _ => only_ite (fun _ => ⟨hwrite _ _, fun _ => trivial⟩) fun _ => trivial)
      fun _ => trivial

end Reduction

end BlockMachine
