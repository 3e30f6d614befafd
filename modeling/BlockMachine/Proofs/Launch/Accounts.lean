import BlockMachine.Proofs.BlockScan.Sums
import BlockMachine.Proofs.Interleaving.Grid
import BlockMachine.Proofs.Lane.Items
import BlockMachine.Proofs.Launch.Intervals

/-!
# The work of a launch

A journal counts how often each item is asked for and how many clones are made.  If each block asks once for each
item of its interval, then the launch does so for all items, and the clones of the blocks add up.

* `Request.clones` — how many clones some requests ask for.
* `Journal.Worked` — what some work adds to a journal.
* `Plan.Accounts` — how often the blocks of a plan ask and clone.
* `Plan.Accounts.worked_launchInOrder`, `Plan.Accounts.worked_run` — so works the launch, in any order of its
  blocks and whatever turns its lanes take.
-/

set_option autoImplicit false

namespace BlockMachine

open Request BlockScan

variable {σ α : Type}

namespace Request

/-- How many clones some requests ask for. -/
def clones (requests : List (Request σ α)) : Nat := requests.countP fun request => request.cloned?.isSome

variable {requests later : List (Request σ α)}

theorem clones_append (requests later : List (Request σ α)) :
    clones (requests ++ later) = clones requests + clones later := List.countP_append

theorem clones_of_none (h : ∀ request ∈ requests, request.cloned? = none) : clones requests = 0 := by
  refine List.countP_eq_zero.mpr fun request hr => ?_
  rw [h request hr]
  simp

theorem clones_perm (h : requests.Perm later) : clones requests = clones later := h.countP_eq _

/-- Each of some parties makes its own clones. -/
theorem clones_flatMap (made : Nat → List (Request σ α)) (count : Nat) :
    clones ((List.range count).flatMap made) = total (fun party => clones (made party)) count := by
  induction count with
  | zero => rfl
  | succ count ih =>
    rw [List.range_succ, List.flatMap_append, clones_append, ih, List.flatMap_cons, List.flatMap_nil,
      List.append_nil, total_succ]

end Request

/-- A request for a clone is counted, and no other. -/
theorem Store.clones_after (element : Element α) (store : Store α) (requests : List (Request σ α)) :
    (store.after element requests).journal.clones = store.journal.clones + clones requests := by
  induction requests generalizing store with
  | nil => rfl
  | cons request rest ih =>
    rw [after_cons, ih, clones, clones, List.countP_cons]
    cases request <;> simp [leave, cloned?, Journal.countClone, Journal.countCall, Journal.note,
      Nat.add_assoc, Nat.add_comm]

/-- What some work adds to a journal: some more questions for each of the first items, and some clones. -/
structure Journal.Worked (items times made : Nat) (before after : Journal) : Prop where
  calls : ∀ index, after.calls[index]? = before.calls[index]?.map (· + if index < items then times else 0)
  clones : after.clones = before.clones + made

/-- One piece of work after the other. -/
theorem Journal.Worked.trans {items times more made others : Nat} {first second third : Journal}
    (h : Worked items times made first second) (h' : Worked items more others second third) :
    Worked items (times + more) (made + others) first third := by
  refine ⟨fun index => ?_, by rw [h'.clones, h.clones, Nat.add_assoc]⟩
  rw [h'.calls, h.calls, Option.map_map]
  congr 1
  funext earlier
  show earlier + _ + _ = _
  split <;> omega

/-- How often the blocks of a plan ask and clone, if `cut` has their intervals. -/
structure Plan.Accounts {kernel : Kernel σ α} {geometry : Geometry} {calls : Array Nat}
    (plan : Plan kernel geometry calls) (cut : Decomposition) (made : Nat → Nat) : Prop where
  ends : ∀ block < geometry.blocks, Block.EndWell geometry.threads (plan.stops block)
  asks : ∀ block < geometry.blocks,
    AsksEach (cut.start block) (cut.start (block + 1)) (plan.requests block)
  clones : ∀ block < geometry.blocks, Request.clones (plan.requests block) = made block

namespace Plan.Accounts

variable {kernel : Kernel σ α} {config : LaunchConfig} {cut : Decomposition} {made : Nat → Nat}
  {calls : Array Nat} {plan : Plan kernel (config.geometry cut.count) calls}

/-- What all blocks have asked and cloned together. -/
theorem worked (h : plan.Accounts cut made) (hcount : 0 < cut.count) {requests : List (Request σ α)}
    (hperm : requests.Perm ((List.range cut.count).flatMap plan.requests)) (element : Element α)
    (store : Store α) :
    Journal.Worked cut.total 1 (total made cut.count) store.journal (store.after element requests).journal := by
  have hall : AsksEach (cut.start 0) (cut.start cut.count) ((List.range cut.count).flatMap plan.requests) :=
    (AsksEach.flatMap cut.start (fun block _ => cut.start_mono (Nat.le_succ block)) h.asks).1
  rw [cut.start_zero, cut.start_count hcount] at hall
  refine ⟨fun index => ?_, ?_⟩
  · rw [Store.calls_after_asksEach (hall.perm hperm.symm) element store index]
    simp only [Nat.zero_le, true_and]
  · have hblocks : total (fun block => Request.clones (plan.requests block)) cut.count =
        total made cut.count := total_congr h.clones
    rw [Store.clones_after, clones_perm hperm, clones_flatMap, hblocks]

/-- **A launch asks once for each item and makes the clones of its blocks**, in any order of these, -/
theorem worked_launchInOrder (h : plan.Accounts cut made) (hvalid : config.validate = .ok ())
    (hcount : 0 < cut.count) {order : Nat → List Nat}
    (horder : (order cut.count).Perm (List.range cut.count)) {store : Store α}
    (hcalls : store.journal.calls = calls) :
    ∃ after, launchInOrder order config kernel cut.count config.width store = (.ok (), after) ∧
      Journal.Worked cut.total 1 (total made cut.count) store.journal after.journal := by
  refine ⟨_, plan.launchInOrder_eq hvalid hcount horder hcalls h.ends, ?_⟩
  obtain ⟨hasked, hcloned⟩ := h.worked hcount (horder.flatMap_right plan.requests)
    kernel.callbacks.element (store.launched config cut.count)
  exact ⟨hasked, hcloned⟩

/-- **and whatever turns its lanes take.** -/
theorem worked_run (h : plan.Accounts cut made) (hcount : 0 < cut.count) {scheduling : Scheduling} {store : Store α}
    (hcalls : store.journal.calls = calls) {places : List (Nat × Nat)}
    (hover : (Grid.run scheduling kernel (config.geometry cut.count) store places).isOver = true) :
    Journal.Worked cut.total 1 (total made cut.count) store.journal
      (Grid.run scheduling kernel (config.geometry cut.count) store places).store.journal := by
  have hfollows := Grid.follows_run plan hcalls scheduling places
  rw [Grid.run_store]
  exact h.worked hcount (hfollows.of_isOver h.ends hover).2.2 kernel.callbacks.element store

end Plan.Accounts

end BlockMachine
