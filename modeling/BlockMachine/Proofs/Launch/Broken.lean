import BlockMachine.Proofs.Launch.Faults
import BlockMachine.Proofs.Launch.Stricter

/-!
# Launches some of whose blocks break off

Each block of a launch either comes to its normal end, or some of its lanes stop with a panic.

* `Crew.Follows.isOver_of_rests` — such a block can be brought to its end.
* `Crew.Follows.ended_of_rests` — at its end each lane has made all its requests, and stands where it stops.
* `Plan.Breaks` — what a launch reports with a panic of a block, and which requests it has made.
* `Plan.Breakable.breaks_of_isOver` — so does every launch that has ended, whatever turns its lanes took.
* `Plan.launchInOrder_breaks` — so does the launch whose blocks run one after the other.
-/

set_option autoImplicit false

namespace BlockMachine

open History

variable {σ α β : Type}

/-! ## Blocks -/

/-- Where a lane is that has stopped in a block that is over. -/
inductive Stop.Ended : Stop σ α β → Station σ α β → Prop
  | finished (result : β) : Ended (.finished result) (.finished result)
  | faulted (panic : Panic) : Ended (.faulted panic) (.unwound panic)
  | released (next : Lane σ α β) : Ended (.waiting next) (.unwound (.raised .barrierPoisoned))

namespace Crew

variable {callbacks : Callbacks σ α} {lanes : Nat} {first : Sight σ} {stages : List (Stage σ α)}
  {stops : Nat → Stop σ α β} {crew : Crew σ α β} {calls : Array Nat} {log : List (Nat × Deed σ α)}

/-- A lane that rests in a scene is at the end of its share: it is over, or waits. -/
theorem Within.ended_of_rests {scene : Scene callbacks lanes β} {history : List (Nat × Request σ α)}
    (h : Within scene history crew calls log) {lane : Nat} (hlane : lane < lanes) (hrest : crew.Rests lane) :
    scene.stage lane = own lane history ∧ ∃ station tail, crew.stations[lane]? = some station ∧
      own lane log = Stage.deeds scene.past lane ++ ((own lane history).map .asks ++ tail) ∧
      ((scene.ends lane).Ended station ∨
        ∃ next, station = .arrived next ∧ scene.ends lane = .waiting next ∧ crew.poisoned = false) := by
  obtain ⟨station, hs, rest, tail, hstage, hstanding, hown⟩ := h.places lane hlane
  unfold Rests at hrest
  rw [hs] at hrest
  generalize hends : scene.ends lane = stop at hstanding
  cases hstanding with
  | running _ => exact hrest.elim
  | arrived next =>
    exact ⟨by rw [hstage, List.append_nil], _, _, hs, hown, .inr ⟨next, rfl, rfl, hrest⟩⟩
  | finished result => exact ⟨by rw [hstage, List.append_nil], _, _, hs, hown, .inl (.finished result)⟩
  | refused panic => exact ⟨by rw [hstage, List.append_nil], _, _, hs, hown, .inl (.faulted panic)⟩
  | faulted panic => exact ⟨by rw [hstage, List.append_nil], _, _, hs, hown, .inl (.faulted panic)⟩
  | released next => exact ⟨by rw [hstage, List.append_nil], _, _, hs, hown, .inl (.released next)⟩

/-- The end of a lane that is unwound is that of its block. -/
theorem Within.poisoned_of_ended {scene : Scene callbacks lanes β} {history : List (Nat × Request σ α)}
    (h : Within scene history crew calls log) {lane : Nat} {stop : Stop σ α β} {station : Station σ α β}
    (hs : crew.stations[lane]? = some station) (hended : stop.Ended station)
    (hstop : ∀ result, stop ≠ .finished result) : crew.poisoned = true := by
  cases hended with
  | finished result => exact absurd rfl (hstop result)
  | faulted panic => exact h.unwound lane _ hs
  | released next => exact h.unwound lane _ hs

/-- **A block at a standstill has come to its end**, if it ends well or breaks off, and this in its last
stage. -/
theorem Follows.ended_of_rests (h : Follows callbacks lanes first stages stops crew calls log)
    (hends : Block.EndWell lanes stops ∨ Block.Breaks lanes stops) (hrests : ∀ lane, crew.Rests lane) :
    ∀ lane < lanes, ∃ station, crew.stations[lane]? = some station ∧ (stops lane).Ended station ∧
      ∀ stage ∈ stages, ∀ request ∈ stage lane, .asks request ∈ own lane log := by
  obtain ⟨scene, history, rfl, _, hruns, hwithin⟩ := h
  rcases ends_of_runs hruns with ⟨hnil, hstop⟩ | ⟨_, hwait⟩
  · intro lane hlane
    obtain ⟨hstage, station, tail, hs, hown, hended⟩ := hwithin.ended_of_rests hlane (hrests lane)
    rw [hstop lane hlane] at hended
    refine ⟨station, hs, ?_, fun stage hmem request hr => ?_⟩
    · rcases hended with hended | ⟨next, rfl, hnext, hp⟩
      · exact hended
      · -- a lane waits only if no other one stops with a panic
        rcases hends with hwell | ⟨other, hother, panic, hpanic⟩
        · obtain ⟨result, hresult⟩ := hwell lane hlane
          rw [hnext] at hresult
          cases hresult
        · obtain ⟨_, station', _, hs', _, hended'⟩ := hwithin.ended_of_rests hother (hrests other)
          rw [hstop other hother, hpanic] at hended'
          rcases hended' with hended' | ⟨_, _, hnext', _⟩
          · rw [hwithin.poisoned_of_ended hs' hended' fun _ h => by cases h] at hp
            cases hp
          · cases hnext'
    · rw [Scene.stages, hnil] at hmem
      rw [hown]
      rcases List.mem_append.mp hmem with hpast | hlast
      · exact List.mem_append_left _ (List.mem_flatMap.mpr ⟨stage, hpast,
          List.mem_append_left _ (List.mem_map_of_mem hr)⟩)
      · rw [List.mem_singleton.mp hlast, hstage] at hr
        exact List.mem_append_right _ (List.mem_append_left _ (List.mem_map_of_mem hr))
  · -- in any other stage all lanes would wait at a barrier that is shut
    exfalso
    obtain ⟨lane, hlane, station, hs, hnot⟩ := hwithin.exists_station hwithin.shut
    obtain ⟨_, station', _, hs', _, hended⟩ := hwithin.ended_of_rests hlane (hrests lane)
    obtain rfl := Option.some.inj (hs.symm.trans hs')
    rcases hended with hended | ⟨next, rfl, _, _⟩
    · obtain ⟨next, hnext⟩ := hwait lane hlane
      rw [hnext] at hended
      obtain ⟨other, hother, panic, hpanic⟩ :=
        hwithin.poisoned (hwithin.poisoned_of_ended hs hended fun _ h => by cases h)
      obtain ⟨next', hnext'⟩ := hwait other hother
      rw [hpanic] at hnext'
      cases hnext'
    · exact hnot rfl

theorem Follows.isOver_of_rests (h : Follows callbacks lanes first stages stops crew calls log)
    (hends : Block.EndWell lanes stops ∨ Block.Breaks lanes stops) (hrests : ∀ lane, crew.Rests lane) :
    crew.isOver = true := by
  have hended := h.ended_of_rests hends hrests
  obtain ⟨_, _, _, _, _, hwithin⟩ := h
  refine List.all_eq_true.mpr fun station hmem => ?_
  obtain ⟨lane, hs⟩ := List.mem_iff_getElem?.mp hmem
  obtain ⟨station', hs', hstop, _⟩ :=
    hended lane (hwithin.length ▸ (List.getElem?_eq_some_iff.mp hs).1)
  obtain rfl := Option.some.inj (hs.symm.trans hs')
  generalize stops lane = stop at hstop
  cases hstop <;> rfl

/-- A fault of a block is how one of its lanes stops. -/
theorem Follows.faulted_of_fault (h : Follows callbacks lanes first stages stops crew calls log)
    {panic : Panic} (hfault : crew.fault = some panic) : ∃ lane < lanes, stops lane = .faulted panic := by
  obtain ⟨scene, _, _, _, hruns, hwithin⟩ := h
  obtain ⟨lane, hlane, hends⟩ := hwithin.fault panic hfault
  rcases ends_of_runs hruns with ⟨_, hstop⟩ | ⟨_, hwait⟩
  · exact ⟨lane, hlane, (hstop lane hlane).symm.trans hends⟩
  · obtain ⟨next, hnext⟩ := hwait lane hlane
    rw [hends] at hnext
    cases hnext

end Crew

/-! ## Launches -/

namespace Plan

variable {kernel : Kernel σ α} {geometry : Geometry} {calls : Array Nat}

/-- A launch whose blocks end well or break off; no lane raises the release signal of a barrier. -/
structure Breakable (plan : Plan kernel geometry calls) : Prop where
  ends : ∀ block < geometry.blocks, Block.EndWell geometry.threads (plan.stops block) ∨
    Block.Breaks geometry.threads (plan.stops block)
  speaks : ∀ block < geometry.blocks, ∀ lane < geometry.threads, ∀ panic,
    plan.stops block lane = .faulted panic → panic.isRelease = false

/-- What a launch that reports a panic of a block has done. -/
structure Breaks (plan : Plan kernel geometry calls) (scheduling : Scheduling) (block : Nat) (panic : Panic)
    (requests : List (Request σ α)) : Prop where
  lt : block < geometry.blocks
  /-- One of the lanes of the block stops with this panic, -/
  faulted : ∃ lane < geometry.threads, plan.stops block lane = .faulted panic
  /-- and if blocks begin one at a time those before it end well. -/
  before : ∀ other < geometry.blocks, scheduling.Before other block →
    Block.EndWell geometry.threads (plan.stops other)
  /-- Every request is planned, -/
  planned : ∀ request ∈ requests, ∃ other < geometry.blocks, request ∈ plan.requests other
  /-- and those of the block and of the ones before it have been made. -/
  made : ∀ other < geometry.blocks, other = block ∨ scheduling.Before other block →
    ∀ request ∈ plan.requests other, request ∈ requests
  /-- If blocks begin one at a time, these are all. -/
  only : scheduling ≠ .parallel → ∀ request ∈ requests, ∃ other < geometry.blocks,
    (other = block ∨ scheduling.Before other block) ∧ request ∈ plan.requests other

variable {plan : Plan kernel geometry calls} {scheduling : Scheduling} {store : Store α}
  {places : List (Nat × Nat)}

/-- The blocks of a launch come to their ends. -/
theorem Breakable.endsAtRest (h : plan.Breakable) (hcalls : store.journal.calls = calls) :
    Grid.EndsAtRest scheduling kernel geometry store := by
  intro places block crew hcrew hrests
  obtain ⟨hblock, hfollows⟩ := (Grid.follows_run plan hcalls scheduling places).of_crew? hcrew
  exact Crew.Follows.isOver_of_rests hfollows (h.ends block hblock) hrests

/-- A launch whose blocks break off can be brought to its end. -/
theorem Breakable.exists_over (h : plan.Breakable) (hcalls : store.journal.calls = calls)
    (scheduling : Scheduling) (places : List (Nat × Nat)) :
    ∃ more, (Grid.run scheduling kernel geometry store (places ++ more)).isOver = true :=
  Grid.exists_over (h.endsAtRest hcalls) ⟨plan.slots, plan.slots_eq⟩ places

/-- What is asked for in a launch is planned by a block that has begun. -/
theorem exists_crew_of_mem_requests (hcalls : store.journal.calls = calls) {request : Request σ α}
    (hr : request ∈ Deed.requests (Grid.log scheduling kernel geometry store places)) :
    ∃ block < geometry.blocks, request ∈ plan.requests block ∧
      ((Grid.run scheduling kernel geometry store places).crew? block).isSome := by
  have hfollows := Grid.follows_run plan hcalls scheduling places
  obtain ⟨⟨block, lane⟩, hlog⟩ := Deed.mem_requests.mp hr
  have hblock := hfollows.log_lt _ hlog
  have hone := hfollows.blocks block hblock
  have hmem : (lane, .asks request) ∈ Grid.ofBlock block (Grid.log scheduling kernel geometry store places) :=
    Grid.mem_ofBlock.mpr hlog
  cases hcrew : (Grid.run scheduling kernel geometry store places).crew? block with
  | none =>
    rw [hcrew] at hone
    rw [hone.1] at hmem
    cases hmem
  | some crew =>
    rw [hcrew] at hone
    obtain ⟨hlane, stage, hstage, hr⟩ := Crew.Follows.mem_stage hone hmem
    exact ⟨block, hblock, plan.mem_requests.mpr ⟨stage, hstage, Stage.mem_all.mpr ⟨lane, hlane, hr⟩⟩,
      by rw [hcrew]; rfl⟩

section Over

variable (h : plan.Breakable) (hcalls : store.journal.calls = calls)

include h hcalls

/-- What a block has done that is over. -/
theorem Breakable.ended_of_crew? {block : Nat} {crew : Crew σ α Unit}
    (hcrew : (Grid.run scheduling kernel geometry store places).crew? block = some crew)
    (hover : crew.isOver = true) :
    (∀ request ∈ plan.requests block,
      request ∈ Deed.requests (Grid.log scheduling kernel geometry store places)) ∧
    (Block.Breaks geometry.threads (plan.stops block) → crew.fault.isSome) := by
  obtain ⟨hblock, hfollows⟩ := (Grid.follows_run plan hcalls scheduling places).of_crew? hcrew
  have hended := Crew.Follows.ended_of_rests hfollows (h.ends block hblock) (Crew.rests_of_isOver hover)
  constructor
  · intro request hr
    obtain ⟨stage, hstage, hr⟩ := plan.mem_requests.mp hr
    obtain ⟨lane, hlane, hr⟩ := Stage.mem_all.mp hr
    obtain ⟨_, _, _, hall⟩ := hended lane hlane
    exact Deed.mem_requests.mpr ⟨(block, lane), Grid.mem_ofBlock.mp (mem_own.mp (hall stage hstage request hr))⟩
  · rintro ⟨lane, hlane, panic, hpanic⟩
    obtain ⟨station, hs, hstop, _⟩ := hended lane hlane
    obtain ⟨segment, habreast⟩ := Grid.abreast_of_crew? hcrew
    rw [hpanic] at hstop
    cases hstop with
    | faulted _ => exact habreast.faulted lane panic hs (h.speaks block hblock lane hlane panic hpanic)

/-- **What a launch has done that has ended with a fault of a block.** -/
theorem Breakable.breaks_of_fault
    (hover : (Grid.run scheduling kernel geometry store places).isOver = true) {block : Nat} {panic : Panic}
    (hfault : (Grid.run scheduling kernel geometry store places).fault? block = some panic) :
    plan.Breaks scheduling block panic
      (Deed.requests (Grid.log scheduling kernel geometry store places)) := by
  obtain ⟨crew, hcrew, hcrewFault⟩ := Option.bind_eq_some_iff.mp hfault
  obtain ⟨hblock, hfollows⟩ := (Grid.follows_run plan hcalls scheduling places).of_crew? hcrew
  have horderly := Grid.orderly_run scheduling kernel geometry store places
  have hdone : ∀ other < geometry.blocks, scheduling.Before other block → ∃ crew,
      (Grid.run scheduling kernel geometry store places).crew? other = some crew ∧
        crew.isOver = true ∧ crew.fault = none :=
    fun other hother hbefore => Grid.isDone_iff.mp
      (horderly.done block (by rw [hcrew]; rfl) other hother hbefore)
  refine ⟨hblock, hfollows.faulted_of_fault hcrewFault, fun other hother hbefore => ?_, fun request hr => ?_,
    fun other hother hor request hr => ?_, fun hone request hr => ?_⟩
  · obtain ⟨crew', hcrew', hover', hnone⟩ := hdone other hother hbefore
    refine (h.ends other hother).resolve_right fun hbreaks => ?_
    have hsome := (h.ended_of_crew? hcalls hcrew' hover').2 hbreaks
    rw [hnone] at hsome
    cases hsome
  · obtain ⟨other, hother, hr, _⟩ := exists_crew_of_mem_requests hcalls hr
    exact ⟨other, hother, hr⟩
  · rcases hor with rfl | hbefore
    · have hcrewOver := (Grid.isOver_iff.mp hover).1 other (Grid.lt_of_crew? hcrew) crew hcrew
      exact (h.ended_of_crew? hcalls hcrew hcrewOver).1 request hr
    · obtain ⟨crew', hcrew', hover', _⟩ := hdone other hother hbefore
      exact (h.ended_of_crew? hcalls hcrew' hover').1 request hr
  · obtain ⟨other, hother, hr, hbegun⟩ := exists_crew_of_mem_requests hcalls hr
    refine ⟨other, hother, ?_, hr⟩
    by_cases he : other = block
    · exact .inl he
    · refine .inr ((Scheduling.before_or_before hone he).resolve_right fun hafter => ?_)
      rw [Grid.crew?_of_fault hfault hafter] at hbegun
      cases hbegun

/-- **A launch that has ended reports a panic of a block**, if some block breaks off, whatever turns its lanes
took. -/
theorem Breakable.breaks_of_isOver
    (hbreaks : ∃ block < geometry.blocks, Block.Breaks geometry.threads (plan.stops block))
    (hover : (Grid.run scheduling kernel geometry store places).isOver = true) {answer : Except Failure Unit}
    (hanswer : (Grid.run scheduling kernel geometry store places).Answers answer) :
    ∃ block panic, answer = .error (.error (.kernelFault block panic.report)) ∧
      plan.Breaks scheduling block panic
        (Deed.requests (Grid.log scheduling kernel geometry store places)) := by
  cases hanswer with
  | fault block panic hfault => exact ⟨block, panic, rfl, h.breaks_of_fault hcalls hover hfault⟩
  | ok hwell =>
    -- all blocks have begun, and the one that breaks off would have a fault
    obtain ⟨block, hblock, hbreaks⟩ := hbreaks
    have hlength := (Grid.orderly_run scheduling kernel geometry store places).length
    obtain ⟨crew, hcrew, hcrewOver⟩ := Grid.exists_crew_of_isOver hover hwell (hlength ▸ hblock)
    have hsome := (h.ended_of_crew? hcalls hcrew hcrewOver).2 hbreaks
    have hnone := hwell block
    rw [Grid.fault?, hcrew, Option.bind_some] at hnone
    rw [hnone] at hsome
    cases hsome

end Over

/-- **So does a launch whose blocks run one after the other**, in an order that its scheduling admits. -/
theorem launchInOrder_breaks {config : LaunchConfig} {blocks : Nat} {order : Nat → List Nat}
    {plan : Plan kernel (config.geometry blocks) calls} (h : plan.Breakable)
    (hvalid : config.validate = .ok ()) (hblocks : 0 < blocks)
    (horder : (order blocks).Perm (List.range blocks))
    (hadmits : config.scheduling = .parallel ∨ config.scheduling.order blocks = order blocks)
    (hcalls : store.journal.calls = calls)
    (hbreaks : ∃ block < blocks, Block.Breaks config.width (plan.stops block)) :
    ∃ block panic after requests,
      launchInOrder order config kernel blocks config.width store =
        (.error (.error (.kernelFault block panic.report)), after) ∧
      plan.Breaks config.scheduling block panic requests ∧
      after.output = ((store.launched config blocks).after kernel.callbacks.element requests).output := by
  obtain ⟨hwidth, hmax⟩ := LaunchConfig.width_of_validate hvalid
  obtain ⟨places, hconcludes⟩ := Grid.exists_run_launch hvalid hwidth hmax hblocks horder hadmits kernel store
  have hstore : (store.launched config blocks).journal.calls = calls := hcalls
  generalize launchInOrder order config kernel blocks config.width store = result at hconcludes
  cases hconcludes with
  | ok hover hwell =>
    obtain ⟨_, _, hanswer, _⟩ := h.breaks_of_isOver hstore hbreaks hover (.ok hwell)
    cases hanswer
  | @fault block panic hover hfault =>
    have houtput := congrArg Store.output (Grid.run_store config.scheduling kernel (config.geometry blocks)
      (store.launched config blocks) places)
    exact ⟨block, panic, _, _, rfl, h.breaks_of_fault hstore hover hfault, houtput⟩
  | deadlock hcrew hrests hlive =>
    rw [h.endsAtRest hstore places _ _ hcrew hrests] at hlive
    cases hlive
  | panic hslots =>
    have hgranted := plan.slots_eq.symm.trans hslots
    cases hgranted

end Plan

end BlockMachine
