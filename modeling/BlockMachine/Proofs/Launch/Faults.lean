import BlockMachine.Proofs.Launch.InOrder
import BlockMachine.Proofs.Launch.Matched
import Mathlib.Data.Finset.Card

/-!
# Launches in which a block faults

* `Grid.EndsAtRest` — a block in which nobody can do anything has come to its end.
* `Grid.exists_over_of_fault`, `Grid.exists_over` — then a launch with a fault can be brought to its end, and so
  can any other one.
* `Grid.crew?_of_fault` — one at a time, no block begins after one with a fault.
-/

set_option autoImplicit false

namespace BlockMachine

open History

variable {σ α : Type}

/-- Blocks that begin one at a time stand in an order. -/
theorem Scheduling.before_or_before {scheduling : Scheduling} (h : scheduling ≠ .parallel)
    {block other : Nat} (hne : other ≠ block) :
    scheduling.Before other block ∨ scheduling.Before block other := by
  cases scheduling with
  | parallel => exact absurd rfl h
  | sequential => exact Nat.lt_or_gt_of_ne hne
  | reversed => exact (Nat.lt_or_gt_of_ne hne).symm

namespace Grid

variable {scheduling : Scheduling} {kernel : Kernel σ α} {geometry : Geometry} {store : Store α}
  {places : List (Nat × Nat)}

/-! ## The end of a launch -/

/-- A block in which no lane can do anything has come to its end. -/
def EndsAtRest (scheduling : Scheduling) (kernel : Kernel σ α) (geometry : Geometry) (store : Store α) :
    Prop :=
  ∀ places block crew, (run scheduling kernel geometry store places).crew? block = some crew →
    (∀ lane, crew.Rests lane) → crew.isOver = true

/-- A block can be brought to a standstill while the others rest. -/
theorem exists_standstill_of_crew? {block : Nat} {crew : Crew σ α Unit}
    (hcrew : (run scheduling kernel geometry store places).crew? block = some crew) :
    ∃ more crew', (∀ lane, crew'.Rests lane) ∧
      ∀ other, (run scheduling kernel geometry store (places ++ more)).crew? other =
        if block = other then some crew' else (run scheduling kernel geometry store places).crew? other := by
  obtain ⟨turns, hrests⟩ := Crew.exists_standstill kernel.callbacks crew
    (run scheduling kernel geometry store places).store
  refine ⟨turns.map fun lane => (block, lane), _, hrests, fun other => ?_⟩
  show (Grid.turns scheduling kernel geometry (start geometry store) (places ++ _)).crew? other = _
  rw [turns_append]
  show ((run scheduling kernel geometry store places).turns scheduling kernel geometry _).crew? other = _
  rw [turns_of_block scheduling hcrew, crew?_set _ _ (lt_of_crew? hcrew)]

/-- A block can be brought to its end while the others rest. -/
theorem exists_over_of_crew? (hrest : EndsAtRest scheduling kernel geometry store) {block : Nat}
    {crew : Crew σ α Unit} (hcrew : (run scheduling kernel geometry store places).crew? block = some crew) :
    ∃ more crew', crew'.isOver = true ∧
      ∀ other, (run scheduling kernel geometry store (places ++ more)).crew? other =
        if block = other then some crew' else (run scheduling kernel geometry store places).crew? other := by
  obtain ⟨more, crew', hrests, hrun⟩ := exists_standstill_of_crew? hcrew
  exact ⟨more, crew', hrest _ block _ ((hrun block).trans (if_pos rfl)) hrests, hrun⟩

/-- The blocks that have begun can be brought to their ends one after the other. -/
theorem exists_all_over (hrest : EndsAtRest scheduling kernel geometry store) (places : List (Nat × Nat))
    (blocks : List Nat) :
    ∃ more, ∀ block, block ∈ blocks ∨ ((run scheduling kernel geometry store places).crew? block).all
        Crew.isOver = true →
      ((run scheduling kernel geometry store (places ++ more)).crew? block).all Crew.isOver = true := by
  induction blocks with
  | nil =>
    refine ⟨[], fun block h => ?_⟩
    rw [List.append_nil]
    exact h.resolve_left List.not_mem_nil
  | cons first rest ih =>
    obtain ⟨more, hmore⟩ := ih
    cases hcrew : (run scheduling kernel geometry store (places ++ more)).crew? first with
    | none =>
      refine ⟨more, fun block h => ?_⟩
      by_cases he : first = block
      · rw [← he, hcrew]
        rfl
      · exact hmore block (h.imp_left fun hmem => (List.mem_cons.mp hmem).resolve_left (Ne.symm he))
    | some crew =>
      obtain ⟨later, crew', hover, hrun⟩ := exists_over_of_crew? hrest hcrew
      refine ⟨more ++ later, fun block h => ?_⟩
      rw [← List.append_assoc, hrun block]
      by_cases he : first = block
      · rw [if_pos he]
        exact hover
      · rw [if_neg he]
        exact hmore block (h.imp_left fun hmem => (List.mem_cons.mp hmem).resolve_left (Ne.symm he))

/-- **A launch with a fault can be brought to its end.** -/
theorem exists_over_of_fault (hrest : EndsAtRest scheduling kernel geometry store) {block : Nat}
    {panic : Panic} (hfault : (run scheduling kernel geometry store places).fault? block = some panic) :
    ∃ more, (run scheduling kernel geometry store (places ++ more)).isOver = true := by
  obtain ⟨more, hmore⟩ := exists_all_over hrest places (List.range geometry.blocks)
  refine ⟨more, ?_⟩
  have hstays := fault?_append scheduling kernel geometry store hfault more
  have hlength := (orderly_run scheduling kernel geometry store (places ++ more)).length
  obtain ⟨crew, hcrew, _⟩ := Option.bind_eq_some_iff.mp hstays
  have hblock := lt_of_crew? hcrew
  simp only [isOver, Bool.and_eq_true, Bool.or_eq_true, List.all_eq_true, List.any_eq_true,
    List.mem_range]
  refine ⟨fun other hother => hmore other (.inl (List.mem_range.mpr (hlength ▸ hother))),
    .inr ⟨block, hblock, ?_⟩⟩
  rw [hstays]
  rfl

/-- A block that has begun stays so. -/
theorem crew?_append_isSome {block : Nat}
    (h : ((run scheduling kernel geometry store places).crew? block).isSome) (more : List (Nat × Nat)) :
    ((run scheduling kernel geometry store (places ++ more)).crew? block).isSome := by
  show ((turns scheduling kernel geometry (start geometry store) (places ++ more)).crew? block).isSome
  rw [turns_append]
  refine turns_induct (Q := fun grid => (grid.crew? block).isSome) (fun grid place hgrid => ?_) h more
  by_cases he : place.1 = block
  · subst he
    obtain ⟨crew, hcrew⟩ := Option.isSome_iff_exists.mp hgrid
    rw [crew?_turn_of_some scheduling hcrew]
    rfl
  · rw [crew?_turn_of_ne scheduling he]
    exact hgrid

/-- The blocks that have not begun. -/
def unbegun (grid : Grid σ α) (blocks : Nat) : Finset Nat :=
  (Finset.range blocks).filter fun block => (grid.crew? block).isNone

theorem mem_unbegun {grid : Grid σ α} {blocks block : Nat} :
    block ∈ grid.unbegun blocks ↔ block < blocks ∧ grid.crew? block = none := by
  rw [unbegun, Finset.mem_filter, Finset.mem_range, Option.isNone_iff_eq_none]

/-- Fewer blocks are left to begin behind a turn that begins one. -/
theorem card_unbegun_lt {blocks first : Nat} (hlt : first < blocks)
    (hfirst : (run scheduling kernel geometry store places).crew? first = none) {more : List (Nat × Nat)}
    (hbegun : ((run scheduling kernel geometry store (places ++ more)).crew? first).isSome) :
    ((run scheduling kernel geometry store (places ++ more)).unbegun blocks).card <
      ((run scheduling kernel geometry store places).unbegun blocks).card := by
  refine Finset.card_lt_card ((Finset.ssubset_iff_of_subset fun block hmem => ?_).mpr
    ⟨first, mem_unbegun.mpr ⟨hlt, hfirst⟩, fun hmem => ?_⟩)
  · obtain ⟨hblock, hlater⟩ := mem_unbegun.mp hmem
    refine mem_unbegun.mpr ⟨hblock, ?_⟩
    by_contra hsome
    have hstays := crew?_append_isSome (Option.isSome_iff_ne_none.mpr hsome) more
    rw [hlater] at hstays
    cases hstays
  · rw [(mem_unbegun.mp hmem).2] at hbegun
    cases hbegun

/-- As long as no block has a fault, the first of those that have not begun can do so. -/
theorem exists_begun (hslots : ∃ slots, kernel.slots geometry.threads = .ok slots)
    (hover : ∀ block < geometry.blocks,
      ((run scheduling kernel geometry store places).crew? block).all Crew.isOver = true)
    (hwell : ∀ block, (run scheduling kernel geometry store places).fault? block = none) {block : Nat}
    (hblock : block < geometry.blocks)
    (hnone : (run scheduling kernel geometry store places).crew? block = none) :
    ∃ first, (run scheduling kernel geometry store places).crew? first = none ∧
      ((run scheduling kernel geometry store (places ++ [(first, 0)])).crew? first).isSome := by
  have hlength := (orderly_run scheduling kernel geometry store places).length
  have hfind : ((scheduling.order geometry.blocks).find? fun block =>
      ((run scheduling kernel geometry store places).crew? block).isNone).isSome := by
    rw [List.find?_isSome]
    exact ⟨block, mem_order.mpr hblock, by rw [hnone]; rfl⟩
  obtain ⟨first, hfirst⟩ := Option.isSome_iff_exists.mp hfind
  obtain ⟨hfirstNone, done, rest, horder, hbegun⟩ := List.find?_eq_some_iff_append.mp hfirst
  have hmem : first ∈ scheduling.order geometry.blocks := by
    rw [horder]
    exact List.mem_append_right _ List.mem_cons_self
  -- those before it are over, and have no fault
  have hdone : ∀ other ∈ done, (run scheduling kernel geometry store places).isDone other = true := by
    intro other hother
    have hlt : other < geometry.blocks :=
      mem_order.mp (by rw [horder]; exact List.mem_append_left _ hother)
    obtain ⟨crew, hcrew⟩ := Option.isSome_iff_exists.mp (by simpa using hbegun other hother)
    have hcrewOver := hover other hlt
    have hcrewWell := hwell other
    rw [hcrew] at hcrewOver
    rw [fault?, hcrew] at hcrewWell
    exact isDone_iff.mpr ⟨crew, hcrew, hcrewOver, hcrewWell⟩
  have hmay := mayBegin_of_done (hlength ▸ horder) hdone
  obtain ⟨slots, hslots⟩ := hslots
  have hturn : run scheduling kernel geometry store (places ++ [(first, 0)]) =
      (run scheduling kernel geometry store places).turn scheduling kernel geometry (first, 0) :=
    turns_append scheduling kernel geometry (start geometry store) places [(first, 0)]
  refine ⟨first, by simpa using hfirstNone, ?_⟩
  rw [hturn, Grid.turn, show (run scheduling kernel geometry store places).crew? (first, 0).1 = none by
    simpa using hfirstNone]
  simp only [hmay, if_true, Grid.begun, hslots]
  rw [crew?_set _ _ (hlength ▸ mem_order.mp hmem), if_pos rfl]
  rfl

/-- **Every launch can be brought to its end** whose blocks come to theirs. -/
theorem exists_over (hrest : EndsAtRest scheduling kernel geometry store)
    (hslots : ∃ slots, kernel.slots geometry.threads = .ok slots) (places : List (Nat × Nat)) :
    ∃ more, (run scheduling kernel geometry store (places ++ more)).isOver = true := by
  -- each round brings the blocks that have begun to their end and begins another one
  generalize hleft : ((run scheduling kernel geometry store places).unbegun geometry.blocks).card = left
  induction left using Nat.strongRecOn generalizing places with
  | ind left ih =>
    obtain ⟨more, hmore⟩ := exists_all_over hrest places (List.range geometry.blocks)
    have hover : ∀ block < geometry.blocks,
        ((run scheduling kernel geometry store (places ++ more)).crew? block).all Crew.isOver = true :=
      fun block hblock => hmore block (.inl (List.mem_range.mpr hblock))
    by_cases hfault : ∃ block panic,
        (run scheduling kernel geometry store (places ++ more)).fault? block = some panic
    · obtain ⟨block, panic, hfault⟩ := hfault
      obtain ⟨rest, hover'⟩ := exists_over_of_fault hrest hfault
      exact ⟨more ++ rest, by rw [← List.append_assoc]; exact hover'⟩
    have hwell : ∀ block, (run scheduling kernel geometry store (places ++ more)).fault? block = none := by
      intro block
      cases hpanic : (run scheduling kernel geometry store (places ++ more)).fault? block with
      | none => rfl
      | some panic => exact absurd ⟨block, panic, hpanic⟩ hfault
    by_cases hall : ∀ block < geometry.blocks,
        ((run scheduling kernel geometry store (places ++ more)).crew? block).isSome = true
    · have hlength := (orderly_run scheduling kernel geometry store (places ++ more)).length
      refine ⟨more, isOver_iff.mpr ⟨fun block hblock crew hcrew => ?_, .inl fun block hblock => ?_⟩⟩
      · have hcrewOver := hover block (hlength ▸ hblock)
        rwa [hcrew] at hcrewOver
      · exact hall block (hlength ▸ hblock)
    · simp only [not_forall] at hall
      obtain ⟨block, hblock, hnone⟩ := hall
      obtain ⟨first, hfirst, hbegun⟩ := exists_begun hslots hover hwell hblock (by simpa using hnone)
      rw [List.append_assoc] at hbegun
      have hfirstBefore : (run scheduling kernel geometry store places).crew? first = none := by
        by_contra hsome
        have hstays := crew?_append_isSome (Option.isSome_iff_ne_none.mpr hsome) more
        rw [hfirst] at hstays
        cases hstays
      have hfirstLt : first < geometry.blocks := by
        obtain ⟨crew, hcrew⟩ := Option.isSome_iff_exists.mp hbegun
        exact (orderly_run scheduling kernel geometry store _).length ▸ lt_of_crew? hcrew
      have hless := hleft ▸ card_unbegun_lt hfirstLt hfirstBefore hbegun
      obtain ⟨rest, hrest'⟩ := ih _ hless (places ++ (more ++ [(first, 0)])) rfl
      exact ⟨(more ++ [(first, 0)]) ++ rest, by rw [← List.append_assoc]; exact hrest'⟩

/-! ## The order of the blocks -/

/-- One at a time, no block begins after one with a fault. -/
theorem crew?_of_fault {block other : Nat} {panic : Panic}
    (hfault : (run scheduling kernel geometry store places).fault? block = some panic)
    (hbefore : scheduling.Before block other) :
    (run scheduling kernel geometry store places).crew? other = none := by
  obtain ⟨crew, hcrew, hcrewFault⟩ := Option.bind_eq_some_iff.mp hfault
  have horderly := orderly_run scheduling kernel geometry store places
  by_contra hbegun
  have hdone := horderly.done other (Option.isSome_iff_ne_none.mpr hbegun) block
    (horderly.length ▸ lt_of_crew? hcrew) hbefore
  rw [isDone, hcrew, Option.any_some, hcrewFault, Bool.and_eq_true] at hdone
  exact Bool.false_ne_true hdone.2

end Grid

end BlockMachine
