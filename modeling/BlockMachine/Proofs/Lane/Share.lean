import BlockMachine.Launch
import Mathlib.Data.List.Nodup
import Mathlib.Data.List.Perm.Basic

/-!
# Shares of the lanes

When the lanes of a block share some items, each item belongs to exactly one lane.

* `LaneContext.mem_share` — the lane of an item is the rest of its number by the lanes of the block.
* `Geometry.perm_share` — the shares of all lanes together are the items, each once.
-/

set_option autoImplicit false

namespace BlockMachine

namespace LaneContext

/-- A lane goes on as long as there are items. -/
theorem lt_turns_iff {width count lane turn : Nat} (hwidth : 0 < width) :
    turn < (count - lane + (width - 1)) / width ↔ lane + turn * width < count := by
  rw [Nat.lt_div_iff_mul_lt hwidth]
  omega

theorem mem_share {context : LaneContext} (hlane : context.lane < context.blockSize)
    {count index : Nat} :
    index ∈ context.share count ↔ index < count ∧ index % context.blockSize = context.lane := by
  have hwidth : 0 < context.blockSize := Nat.zero_lt_of_lt hlane
  simp only [share, List.mem_map, List.mem_range, lt_turns_iff hwidth]
  constructor
  · rintro ⟨turn, hturn, rfl⟩
    refine ⟨hturn, ?_⟩
    rw [Nat.add_mul_mod_self_right, Nat.mod_eq_of_lt hlane]
  · rintro ⟨hindex, hmod⟩
    have hdiv := Nat.mod_add_div index context.blockSize
    rw [hmod, Nat.mul_comm] at hdiv
    exact ⟨index / context.blockSize, by omega, hdiv⟩

theorem nodup_share {context : LaneContext} (hwidth : 0 < context.blockSize) (count : Nat) :
    (context.share count).Nodup := by
  apply List.Nodup.map _ List.nodup_range
  intro turn other h
  exact Nat.eq_of_mul_eq_mul_right hwidth (Nat.add_left_cancel h)

end LaneContext

namespace Geometry

variable {geometry : Geometry}

/-- **The shares of all lanes together are the items**, each once. -/
theorem perm_share (hthreads : 0 < geometry.threads) (block count : Nat) :
    ((List.range geometry.threads).flatMap fun lane =>
      (geometry.context block lane).share count).Perm (List.range count) := by
  have hmem : ∀ lane < geometry.threads, ∀ index,
      index ∈ (geometry.context block lane).share count ↔
        index < count ∧ index % geometry.threads = lane :=
    fun lane hlane index => LaneContext.mem_share hlane
  apply (List.perm_ext_iff_of_nodup ?_ List.nodup_range).mpr
  · intro index
    simp only [List.mem_flatMap, List.mem_range]
    constructor
    · rintro ⟨lane, hlane, h⟩
      exact ((hmem lane hlane index).mp h).1
    · intro h
      have hmod := Nat.mod_lt index hthreads
      exact ⟨index % geometry.threads, hmod, (hmem _ hmod index).mpr ⟨h, rfl⟩⟩
  · rw [List.nodup_flatMap]
    refine ⟨fun lane _ => LaneContext.nodup_share hthreads count, ?_⟩
    apply List.Pairwise.imp_of_mem _ List.nodup_range
    intro lane other hlane hother hne index h h'
    have hown := ((hmem lane (List.mem_range.mp hlane) index).mp h).2
    have hsame := ((hmem other (List.mem_range.mp hother) index).mp h').2
    exact hne (hown.symm.trans hsame)

/-- Work on the shares of all lanes is work on the items, in another order. -/
theorem perm_flatMap_share {ρ : Type} (hthreads : 0 < geometry.threads) (block count : Nat)
    (work : Nat → List ρ) :
    ((List.range geometry.threads).flatMap fun lane =>
      ((geometry.context block lane).share count).flatMap work).Perm
      ((List.range count).flatMap work) := by
  rw [← List.flatMap_assoc]
  exact (perm_share hthreads block count).flatMap_right work

end Geometry

end BlockMachine
