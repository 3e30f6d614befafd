import BlockMachine.Launch
import BlockMachine.Proofs.Block.Run

/-!
# Plans of a launch

A plan says what each block of a launch does, from the slots that it is given, whenever it runs.

* `Plan` — the stages and stops of all blocks; no block asks for an item whose answers are counted if
  another one does.
* `Plan.runBlock_eq` — a block does what the plan says in any store that the others have left.
* `Plan.runBlocks_eq` — blocks that end well, in any order, leave what their requests leave.
* `Plan.runBlocks_error` — a block with a fault makes the launch fail, in any order.
-/

set_option autoImplicit false

namespace BlockMachine

variable {σ α β : Type}

/-! ## Verdicts -/

namespace Block

/-- Whether some lane has a fault to report. -/
def Faults (lanes : Nat) (stops : Nat → Stop σ α β) : Prop :=
  ∃ lane < lanes, ∃ panic, stops lane = .faulted panic ∧ panic.isRelease = false

theorem verdict_of_endWell {lanes : Nat} {stops : Nat → Stop σ α β} (h : EndWell lanes stops) :
    verdict ((List.range lanes).map stops) = .complete := by
  have hfinished : ∀ stop ∈ (List.range lanes).map stops, ∃ result, stop = .finished result := by
    intro stop hstop
    obtain ⟨lane, hlane, rfl⟩ := List.mem_map.mp hstop
    exact h lane (List.mem_range.mp hlane)
  have hpanics : ((List.range lanes).map stops).filterMap Stop.panic? = [] := by
    rw [List.filterMap_eq_nil_iff]
    intro stop hstop
    obtain ⟨result, rfl⟩ := hfinished stop hstop
    rfl
  have hwaiting : ((List.range lanes).map stops).any (fun stop => stop.next?.isSome) = false := by
    rw [List.any_eq_false]
    intro stop hstop
    obtain ⟨result, rfl⟩ := hfinished stop hstop
    simp [Stop.next?]
  simp only [verdict, hpanics, hwaiting]
  rfl

theorem verdict_of_faults {lanes : Nat} {stops : Nat → Stop σ α β} (h : Faults lanes stops) :
    ∃ message, verdict ((List.range lanes).map stops) = .faulted message := by
  obtain ⟨lane, hlane, panic, hstop, hrelease⟩ := h
  have hmem : panic ∈ ((List.range lanes).map stops).filterMap Stop.panic? := by
    rw [List.mem_filterMap]
    exact ⟨stops lane, List.mem_map_of_mem (List.mem_range.mpr hlane), by rw [hstop]; rfl⟩
  unfold verdict
  generalize ((List.range lanes).map stops).filterMap Stop.panic? = panics at hmem ⊢
  cases panics with
  | nil => cases hmem
  | cons first rest =>
    cases hfind : (first :: rest).find? fun panic => !panic.isRelease with
    | none =>
      have hall := List.find?_eq_none.mp hfind panic hmem
      simp [hrelease] at hall
    | some found =>
      refine ⟨found.report, ?_⟩
      simp only [hfind]

end Block

/-- The blocks of a launch in the order of its configuration. -/
theorem Scheduling.perm_order (scheduling : Scheduling) (blocks : Nat) :
    (scheduling.order blocks).Perm (List.range blocks) := by
  cases scheduling with
  | reversed => exact List.reverse_perm _
  | _ => exact .refl _

/-! ## Plans -/

/-- What the blocks of a launch do.  `calls` is how often items have been asked for before. -/
structure Plan (kernel : Kernel σ α) (geometry : Geometry) (calls : Array Nat) where
  slots : Array σ
  stages : Nat → List (Stage σ α)
  stops : Nat → Nat → Stop σ α Unit
  slots_eq : kernel.slots geometry.threads = .ok slots
  runs : ∀ block < geometry.blocks, Block.Runs kernel.callbacks geometry.threads
    (fun lane => kernel.program (geometry.context block lane)) ⟨slots, calls⟩ (stages block)
    (stops block)
  apart : ∀ block < geometry.blocks, ∀ other < geometry.blocks, block ≠ other → ∀ index,
    Stage.Asked kernel.callbacks geometry.threads (stages block) index →
      ∀ stage ∈ stages other, ∀ request ∈ stage.all geometry.threads, request.item? ≠ some index

namespace Plan

variable {kernel : Kernel σ α} {geometry : Geometry} {calls : Array Nat}
  (plan : Plan kernel geometry calls)

/-- The requests of a block. -/
def requests (block : Nat) : List (Request σ α) :=
  (plan.stages block).flatMap fun stage => stage.all geometry.threads

theorem mem_requests {block : Nat} {request : Request σ α} :
    request ∈ plan.requests block ↔
      ∃ stage ∈ plan.stages block, request ∈ stage.all geometry.threads :=
  List.mem_flatMap

/-- Whether a block sees what the plan foresees: the items that it asks for have been asked for as often
as the plan tells. -/
def Ready (block : Nat) (store : Store α) : Prop :=
  ∀ index, Stage.Asked kernel.callbacks geometry.threads (plan.stages block) index →
    store.journal.calls[index]? = calls[index]?

/-- Requests of another block do not ask for the counted items of a block. -/
theorem calls_after_other {block other : Nat} (hblock : block < geometry.blocks)
    (hother : other < geometry.blocks) (hne : block ≠ other) {index : Nat}
    (hasked : Stage.Asked kernel.callbacks geometry.threads (plan.stages block) index)
    {requests : List (Request σ α)} (hrequests : ∀ request ∈ requests, request ∈ plan.requests other)
    (store : Store α) :
    (store.after kernel.callbacks.element requests).journal.calls[index]? =
      store.journal.calls[index]? := by
  have hnone : requests.countP (fun request => request.item? == some index) = 0 := by
    rw [List.countP_eq_zero]
    intro request hr hitem
    obtain ⟨stage, hstage, hr⟩ := plan.mem_requests.mp (hrequests request hr)
    exact plan.apart block hblock other hother hne index hasked stage hstage request hr
      (by simpa using hitem)
  rw [Store.calls_after kernel.callbacks.element plan.slots, Sight.getElem?_calls_after, hnone]
  simp

/-- Every block is ready at the beginning. -/
theorem ready_of_calls {store : Store α} (hcalls : store.journal.calls = calls) (block : Nat) :
    plan.Ready block store := by
  intro index _
  rw [hcalls]

/-- Requests of another block do not take anything from a block. -/
theorem ready_after {block other : Nat} (hblock : block < geometry.blocks)
    (hother : other < geometry.blocks) (hne : block ≠ other) {store : Store α}
    (h : plan.Ready block store) {requests : List (Request σ α)}
    (hrequests : ∀ request ∈ requests, request ∈ plan.requests other) :
    plan.Ready block (store.after kernel.callbacks.element requests) :=
  fun index hasked =>
    (plan.calls_after_other hblock hother hne hasked hrequests store).trans (h index hasked)

/-- The run of a block in a store that others may have changed. -/
theorem runs_of_ready {block : Nat} (hblock : block < geometry.blocks) {store : Store α}
    (h : plan.Ready block store) :
    Block.Runs kernel.callbacks geometry.threads
      (fun lane => kernel.program (geometry.context block lane)) ⟨plan.slots, store.journal.calls⟩
      (plan.stages block) (plan.stops block) := by
  apply (plan.runs block hblock).transport
  intro stage hstage request hr
  refine ⟨rfl, fun _ _ => rfl, fun index hindex hc => ?_⟩
  exact (h index ⟨hc, stage, hstage, request, hr, hindex⟩).symm

/-- **A block does what the plan says** in any store that the others have left. -/
theorem run_eq {block : Nat} (hblock : block < geometry.blocks) {store : Store α}
    (h : plan.Ready block store) :
    ∃ slots, Block.run kernel.callbacks (kernel.lanes geometry block) ⟨plan.slots, store⟩ =
      (Block.verdict ((List.range geometry.threads).map (plan.stops block)),
        ⟨slots, store.after kernel.callbacks.element (plan.requests block)⟩) :=
  ⟨_, Block.run_of_runs (plan.runs_of_ready hblock h) ⟨plan.slots, store⟩ rfl⟩

theorem runBlock_eq {block : Nat} (hblock : block < geometry.blocks) {store : Store α}
    (h : plan.Ready block store) (hends : Block.EndWell geometry.threads (plan.stops block)) :
    runBlock kernel geometry block store =
      (.ok (), store.after kernel.callbacks.element (plan.requests block)) := by
  obtain ⟨slots, hrun⟩ := plan.run_eq hblock h
  rw [Block.verdict_of_endWell hends] at hrun
  simp only [runBlock_def, plan.slots_eq, hrun]

theorem runBlock_error {block : Nat} (hblock : block < geometry.blocks) {store : Store α}
    (h : plan.Ready block store) (hfaults : Block.Faults geometry.threads (plan.stops block)) :
    ∃ failure store', runBlock kernel geometry block store = (.error failure, store') := by
  obtain ⟨slots, hrun⟩ := plan.run_eq hblock h
  obtain ⟨message, hmessage⟩ := Block.verdict_of_faults hfaults
  rw [hmessage] at hrun
  simp only [runBlock_def, plan.slots_eq, hrun]
  exact ⟨_, _, rfl⟩

/-- What the blocks of an order have not asked for yet is as the plan foresees. -/
theorem ready_rest {order : List Nat} {block : Nat} (hnodup : (block :: order).Nodup)
    (hlt : ∀ other ∈ block :: order, other < geometry.blocks) {store : Store α}
    (h : ∀ other ∈ block :: order, plan.Ready other store) :
    ∀ other ∈ order,
      plan.Ready other (store.after kernel.callbacks.element (plan.requests block)) := by
  intro other hother
  have hne : other ≠ block := by
    rintro rfl
    exact (List.nodup_cons.mp hnodup).1 hother
  exact plan.ready_after (hlt other (List.mem_cons_of_mem _ hother)) (hlt block List.mem_cons_self) hne
    (h other (List.mem_cons_of_mem _ hother)) fun _ hr => hr

/-- **Blocks that end well, in any order**, leave what their requests leave. -/
theorem runBlocks_eq {order : List Nat} (hnodup : order.Nodup)
    (hlt : ∀ block ∈ order, block < geometry.blocks) {store : Store α}
    (h : ∀ block ∈ order, plan.Ready block store)
    (hends : ∀ block ∈ order, Block.EndWell geometry.threads (plan.stops block)) :
    runBlocks kernel geometry order store =
      (.ok (), store.after kernel.callbacks.element (order.flatMap plan.requests)) := by
  induction order generalizing store with
  | nil => rfl
  | cons block rest ih =>
    have hblock := plan.runBlock_eq (hlt block List.mem_cons_self) (h block List.mem_cons_self)
      (hends block List.mem_cons_self)
    have hrest := ih (List.nodup_cons.mp hnodup).2
      (fun other hother => hlt other (List.mem_cons_of_mem _ hother))
      (plan.ready_rest hnodup hlt h)
      (fun other hother => hends other (List.mem_cons_of_mem _ hother))
    rw [runBlocks_cons, hblock, List.flatMap_cons, Store.after_append]
    exact hrest

/-- **A block with a fault makes the launch fail**, wherever it stands in the order. -/
theorem runBlocks_error {order : List Nat} (hnodup : order.Nodup)
    (hlt : ∀ block ∈ order, block < geometry.blocks) {store : Store α}
    (h : ∀ block ∈ order, plan.Ready block store)
    (hends : ∀ block ∈ order, Block.EndWell geometry.threads (plan.stops block) ∨
      Block.Faults geometry.threads (plan.stops block))
    (hfaults : ∃ block ∈ order, Block.Faults geometry.threads (plan.stops block)) :
    ∃ failure store', runBlocks kernel geometry order store = (.error failure, store') := by
  induction order generalizing store with
  | nil =>
    obtain ⟨block, hblock, _⟩ := hfaults
    cases hblock
  | cons block rest ih =>
    have hready := h block List.mem_cons_self
    rcases hends block List.mem_cons_self with hwell | hfault
    · have hblock := plan.runBlock_eq (hlt block List.mem_cons_self) hready hwell
      rw [runBlocks_cons, hblock]
      apply ih (List.nodup_cons.mp hnodup).2
        (fun other hother => hlt other (List.mem_cons_of_mem _ hother))
        (plan.ready_rest hnodup hlt h)
        (fun other hother => hends other (List.mem_cons_of_mem _ hother))
      obtain ⟨other, hother, hfault⟩ := hfaults
      rcases List.mem_cons.mp hother with rfl | hother
      · obtain ⟨lane, hlane, panic, hpanic, _⟩ := hfault
        obtain ⟨result, hresult⟩ := hwell lane hlane
        rw [hpanic] at hresult
        cases hresult
      · exact ⟨other, hother, hfault⟩
    · obtain ⟨failure, store', hblock⟩ :=
        plan.runBlock_error (hlt block List.mem_cons_self) hready hfault
      rw [runBlocks_cons, hblock]
      exact ⟨failure, store', rfl⟩

end Plan

end BlockMachine
