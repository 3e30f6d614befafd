import BlockMachine.Proofs.Launch.Faults

/-!
# Lanes at their barriers

How the lanes of a block get through their barriers in every run of a launch.

* `Grid.arrivals` — the barriers at which a lane has arrived.
* `Grid.Paced` — no lane takes more barriers than a number, those that come to their normal end take just that
  many, and none is left behind at a barrier.
* `Grid.paced_of_takes` — so it is if the programs of the block take that number.
* `Grid.Passes` — no lane panics, so that all lanes take all barriers; `Grid.passes_of_plan` reads this off a
  plan.
-/

set_option autoImplicit false

namespace BlockMachine

open History

variable {σ α : Type}

namespace Grid

/-- The number of barriers at which a lane of a block has arrived. -/
def arrivals (log : List ((Nat × Nat) × Deed σ α)) (block lane : Nat) : Nat :=
  Deed.arrivals (own lane (ofBlock block log))

/-- How the lanes of a block get through their barriers, whatever turns the lanes of the launch take. -/
structure Paced (scheduling : Scheduling) (kernel : Kernel σ α) (geometry : Geometry) (store : Store α)
    (block barriers : Nat) : Prop where
  /-- A lane that has come to its normal end has taken all barriers, -/
  all : ∀ places lane, (run scheduling kernel geometry store places).Finished block lane →
    arrivals (Grid.log scheduling kernel geometry store places) block lane = barriers
  /-- and no lane takes more of them. -/
  most : ∀ places, ∀ lane < geometry.threads,
    arrivals (Grid.log scheduling kernel geometry store places) block lane ≤ barriers
  /-- No lane is more than one barrier ahead of another one. -/
  abreast : ∀ places, ∀ lane < geometry.threads, ∀ other < geometry.threads,
    arrivals (Grid.log scheduling kernel geometry store places) block lane ≤
      arrivals (Grid.log scheduling kernel geometry store places) block other + 1
  /-- No lane waits for one that has come to its normal end. -/
  together : ∀ places crew, (run scheduling kernel geometry store places).crew? block = some crew →
    ¬ crew.Parted
  /-- When nobody can do anything any more, all lanes have come to their ends, -/
  standstill : ∀ places crew, (run scheduling kernel geometry store places).crew? block = some crew →
    (∀ lane, crew.Rests lane) → crew.isOver = true
  /-- and to this the block can always be brought. -/
  ends : ∀ places crew, (run scheduling kernel geometry store places).crew? block = some crew →
    ∃ more crew', (run scheduling kernel geometry store (places ++ more)).crew? block = some crew' ∧
      crew'.isOver = true

variable {scheduling : Scheduling} {kernel : Kernel σ α} {geometry : Geometry} {store : Store α}
  {places : List (Nat × Nat)} {block barriers : Nat}

/-- The barriers of a lane that has moved are still no more than those of its program. -/
theorem arrivals_move_le {station station' : Station σ α Unit} {deeds more : List (Deed σ α)}
    (h : Counts barriers station deeds) (hle : Deed.arrivals deeds ≤ barriers)
    (hmove : Crew.Move kernel.callbacks station more station') :
    Deed.arrivals (deeds ++ more) ≤ barriers := by
  -- a lane at a barrier is still to take that one
  have hbarrier : ∀ next : Lane σ α Unit, Counts barriers (.running (.barrier next)) deeds →
      Deed.arrivals (deeds ++ [(.arrives : Deed σ α)]) ≤ barriers := by
    rintro next ⟨_, hcount, rest, rfl, _⟩
    rw [Deed.arrivals_concat, if_pos (by rfl)]
    omega
  cases hmove with
  | arrives next => exact hbarrier next h
  | goesThrough next => exact hbarrier next h
  | turnedAway next => exact hbarrier next h
  | stays _ => rwa [List.append_nil]
  | goesOn _ => rwa [List.append_nil]
  | released _ => rwa [List.append_nil]
  | finishes _ => rwa [Deed.arrivals_concat, if_neg (by exact Bool.false_ne_true)]
  | faults _ => rwa [Deed.arrivals_concat, if_neg (by exact Bool.false_ne_true)]
  | asks _ _ => rwa [Deed.arrivals_concat, if_neg (by exact Bool.false_ne_true)]
  | panics _ _ => rwa [Deed.arrivals_concat, if_neg (by exact Bool.false_ne_true)]

/-- No lane takes more barriers than its program has. -/
theorem arrivals_le (htakes : ∀ lane < geometry.threads,
      (kernel.program (geometry.context block lane)).Takes barriers)
    (scheduling : Scheduling) (store : Store α) (places : List (Nat × Nat)) {lane : Nat}
    (hlane : lane < geometry.threads) :
    arrivals (Grid.log scheduling kernel geometry store places) block lane ≤ barriers := by
  have hkeeps := @ofLanes_run σ α kernel geometry
    (fun other _ station deeds =>
      other = block → Counts barriers station deeds ∧ Deed.arrivals deeds ≤ barriers)
    (by
      rintro other lane hlane rfl
      exact ⟨⟨barriers, Nat.zero_add _, htakes lane hlane⟩, Nat.zero_le _⟩)
    (fun _ _ _ _ _ _ h hmove he =>
      ⟨(h he).1.move hmove, arrivals_move_le (h he).1 (h he).2 hmove⟩) scheduling store places block
  cases hcrew : (run scheduling kernel geometry store places).crew? block with
  | none =>
    rw [hcrew] at hkeeps
    rw [arrivals, show ofBlock block _ = [] from hkeeps]
    exact Nat.zero_le _
  | some crew =>
    rw [hcrew] at hkeeps
    obtain ⟨segment, habreast⟩ := abreast_of_crew? hcrew
    have hget := List.getElem?_eq_getElem (habreast.length ▸ hlane : lane < crew.stations.length)
    exact (hkeeps lane _ hget rfl).2

/-- A lane has taken the barriers before the segment of its block, and perhaps the next one. -/
theorem arrivals_of_stands {segment : Nat} {station : Station σ α Unit} {deeds : List (Deed σ α)}
    (h : station.Stands segment deeds) :
    segment ≤ Deed.arrivals deeds ∧ Deed.arrivals deeds ≤ segment + 1 := by
  cases h with
  | running _ h => omega
  | arrived _ h =>
    rw [Deed.arrivals_concat, h]
    exact ⟨Nat.le_add_right .., Nat.le_refl _⟩
  | finished _ h =>
    rw [Deed.arrivals_concat, h]
    exact ⟨Nat.le_add_right .., Nat.le_succ _⟩
  | panicked _ hdeed h =>
    rw [Deed.arrivals_concat, h, hdeed]
    exact ⟨Nat.le_add_right .., Nat.le_succ _⟩
  | released h =>
    rw [Deed.arrivals_concat, h]
    exact ⟨Nat.le_add_right .., Nat.le_refl _⟩

/-- The lanes of a block are never more than one barrier apart. -/
theorem arrivals_le_succ (scheduling : Scheduling) (kernel : Kernel σ α) (geometry : Geometry)
    (store : Store α) (places : List (Nat × Nat)) (block : Nat) {lane other : Nat}
    (hlane : lane < geometry.threads) (hother : other < geometry.threads) :
    arrivals (Grid.log scheduling kernel geometry store places) block lane ≤
      arrivals (Grid.log scheduling kernel geometry store places) block other + 1 := by
  have hkeeps := abreast_run scheduling kernel geometry store places block
  cases hcrew : (run scheduling kernel geometry store places).crew? block with
  | none =>
    rw [hcrew] at hkeeps
    rw [arrivals, arrivals, show ofBlock block _ = [] from hkeeps]
    exact Nat.le_succ _
  | some crew =>
    rw [hcrew] at hkeeps
    obtain ⟨segment, habreast⟩ := hkeeps
    have hstands : ∀ lane < geometry.threads, _ := fun lane hlane =>
      arrivals_of_stands (habreast.stands lane _
        (List.getElem?_eq_getElem (habreast.length ▸ hlane : lane < crew.stations.length)))
    exact Nat.le_trans (hstands lane hlane).2 (Nat.succ_le_succ (hstands other hother).1)

/-- **A block whose programs take a number of barriers** gets through them. -/
theorem paced_of_takes (htakes : ∀ lane < geometry.threads,
      (kernel.program (geometry.context block lane)).Takes barriers)
    (scheduling : Scheduling) (store : Store α) :
    Paced scheduling kernel geometry store block barriers := by
  have hstandstill : ∀ places crew,
      (run scheduling kernel geometry store places).crew? block = some crew →
        (∀ lane, crew.Rests lane) → crew.isOver = true := by
    intro places crew hcrew hrests
    obtain ⟨segment, habreast⟩ := abreast_of_crew? hcrew
    exact habreast.isOver_of_rests hrests fun _ => not_parted_of_takes htakes hcrew
  refine ⟨fun places lane hfinished => ?_, fun places lane hlane => ?_, fun places lane hlane other hother => ?_,
    fun places crew hcrew => not_parted_of_takes htakes hcrew, hstandstill, fun places crew hcrew => ?_⟩
  · obtain ⟨crew, hcrew, hs⟩ := hfinished
    exact counts_run htakes scheduling store hcrew lane _ hs
  · exact arrivals_le htakes scheduling store places hlane
  · exact arrivals_le_succ scheduling kernel geometry store places block hlane hother
  · obtain ⟨more, crew', hrests, hrun⟩ := exists_standstill_of_crew? hcrew
    have hcrew' := (hrun block).trans (if_pos rfl)
    exact ⟨more, crew', hcrew', hstandstill _ crew' hcrew' hrests⟩

/-- No lane of a block panics, so that all of them take all barriers. -/
structure Passes (scheduling : Scheduling) (kernel : Kernel σ α) (geometry : Geometry) (store : Store α)
    (block barriers : Nat) : Prop where
  calm : ∀ places lane panic, ¬ (run scheduling kernel geometry store places).Raises
    (Grid.log scheduling kernel geometry store places) block lane panic
  all : ∀ places crew, (run scheduling kernel geometry store places).crew? block = some crew →
    crew.isOver = true → ∀ lane < geometry.threads,
      (run scheduling kernel geometry store places).Finished block lane ∧
        arrivals (Grid.log scheduling kernel geometry store places) block lane = barriers

/-- **A block that ends well by its plan** takes all its barriers. -/
theorem passes_of_plan {calls : Array Nat} (plan : Plan kernel geometry calls)
    (hcalls : store.journal.calls = calls) (hblock : block < geometry.blocks)
    (hends : Block.EndWell geometry.threads (plan.stops block))
    (hpaced : Paced scheduling kernel geometry store block barriers) :
    Passes scheduling kernel geometry store block barriers := by
  have hcalm : ∀ places crew, (run scheduling kernel geometry store places).crew? block = some crew →
      crew.poisoned = false := by
    intro places crew hcrew
    have hfollows := (follows_run plan hcalls scheduling places).blocks block hblock
    rw [hcrew] at hfollows
    exact (Crew.Follows.not_poisoned hfollows hends).1
  have hnone : ∀ places crew, (run scheduling kernel geometry store places).crew? block = some crew →
      ∀ lane panic, ¬ crew.Raises
        (ofBlock block (Grid.log scheduling kernel geometry store places)) lane panic := by
    intro places crew hcrew lane panic hraises
    obtain ⟨segment, habreast⟩ := abreast_of_crew? hcrew
    exact habreast.calm (hcalm places crew hcrew) lane panic hraises.1
  refine ⟨?_, fun places crew hcrew hover lane hlane => ?_⟩
  · rintro places lane panic ⟨crew, hcrew, hraises⟩
    exact hnone places crew hcrew lane panic hraises
  · obtain ⟨segment, habreast⟩ := abreast_of_crew? hcrew
    obtain ⟨result, hs⟩ := (habreast.finished_iff hover).mpr (hnone places crew hcrew) lane hlane
    have hfinished : (run scheduling kernel geometry store places).Finished block lane := ⟨crew, hcrew, hs⟩
    exact ⟨hfinished, hpaced.all places lane hfinished⟩

end Grid

end BlockMachine
