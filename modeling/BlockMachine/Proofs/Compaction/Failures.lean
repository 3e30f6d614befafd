import BlockMachine.Compaction.Masked
import BlockMachine.Proofs.Compaction.Arrivals
import BlockMachine.Proofs.Compaction.Hosts
import BlockMachine.Proofs.Compaction.Patched
import BlockMachine.Proofs.Compaction.Result
import BlockMachine.Proofs.Launch.Length
import BlockMachine.Proofs.Reduction.Panics

/-!
# What a failed compaction leaves

Whatever goes wrong before the blocks write leaves the output as it was, a panic of the predicate and a host that
cannot start a lane included.  Two things that may go wrong while they write do not, since what has been written
stays: a clone that panics, and a host that cannot start a lane then.

* `Compaction.Arrives.exists_flag` — one that comes there has all its flags.
* `Compaction.Interrupted` — a clone has panicked while the blocks wrote.
* `Compaction.CutShort` — the host could not start a lane while the blocks wrote.
* `Compaction.Arrives.interrupted` — nothing else makes the writing launch fail.
* `Compaction.failures_leave_output` — so all compactions leave their output if they fail otherwise.
-/

set_option autoImplicit false

namespace BlockMachine

open Request BlockScan

/-- The items of a view of flags are 0 or 1. -/
theorem View.itemOr_flags_le {S : Type} (selector : Selector S) (view : View S) (index earlier : Nat) :
    (view.flags selector).itemOr 0 index earlier ≤ 1 := by
  have hitem : (view.flags selector).item index earlier = (do
      let value ← view.item index earlier
      return if ← selector index earlier value then 1 else 0) := rfl
  rw [itemOr, hitem]
  cases view.item index earlier with
  | error panic => exact Nat.zero_le 1
  | ok value =>
    show ((do return if ← selector index earlier value then 1 else 0).toOption.getD 0) ≤ 1
    cases selector index earlier value with
    | error panic => exact Nat.zero_le 1
    | ok answer => cases answer <;> decide

namespace Compaction

variable {α S : Type}

section Flags

variable {orders : Orders} {config : LaunchConfig} {element : Element α} {input : Placed α}
  {flags : View Nat} {address : Nat} {before store : Store α} {task : Task α}

/-- A compaction keeps the length of its output. -/
theorem size_compactFlags (orders : Orders) (config : LaunchConfig) (element : Element α)
    (input : Placed α) (flags : View Nat) (address : Nat) (before : Store α) :
    (compactFlags orders config element input flags address before).2.output.size =
      before.output.size := by
  rcases arrives_or_output_eq orders config element input flags address before with
    ⟨task, store, harrives⟩ | houtput
  · have hlaunch := size_launchInOrder orders.writing config (kernel flags task) task.cut.count
      config.width store
    rw [harrives.output] at hlaunch
    rw [harrives.compactFlags_eq]
    cases hresult : launchInOrder orders.writing config (kernel flags task) task.cut.count config.width
      store with
    | mk result after =>
      rw [hresult] at hlaunch
      cases result <;> exact hlaunch
  · rw [houtput]

/-- One that stops in its writing launch does so too. -/
theorem StopsWriting.size_output {spawner : Spawner} {result : Except Failure Nat × Store α}
    (h : StopsWriting spawner orders config element input flags address before result) :
    result.2.output.size = before.output.size := by
  obtain ⟨task, store, harrives, block, cause, ⟨_, done, rest, _, hdone⟩, _⟩ := h.reached
  have hsize := size_runBlocks (kernel flags task) (config.geometry task.cut.count) done
    (store.launched config task.cut.count)
  rw [hdone] at hsize
  exact hsize.trans (congrArg Array.size harrives.output)

/-- **A compaction that comes to its writing launch has all its flags**, unless one of them panics with the
release signal. -/
theorem Arrives.exists_flag (h : Arrives orders config element input flags address before task store)
    (hlength : input.length < Word.allocationLimit)
    (horder : ∀ blocks, (orders.counting blocks).Perm (List.range blocks))
    (hpure : ∀ index earlier later, flags.item index earlier = flags.item index later)
    (hflags : ∀ index, flags.itemOr 0 index 0 ≤ 1)
    (hrelease : ∀ index < input.length, ∀ panic, flags.item index 0 = .error panic →
      panic.isRelease = false) :
    ∀ index < input.length, ∃ flag, flags.item index 0 = .ok flag := by
  intro index hindex
  cases hitem : flags.item index 0 with
  | ok flag => exact ⟨flag, rfl⟩
  | error panic =>
    have hlimits : Word.allocationLimit < Word.limit := by decide
    obtain ⟨hcovers, hcount⟩ :=
      Decomposition.of_forLaunch h.valid (Nat.pos_of_ne_zero h.nonempty) h.cut
    have hsum := total_le_self hflags task.cut.total
    obtain ⟨counts, early, after, hgranted, hreduced, _⟩ := exists_counts h.offsets
    -- the counting launch would have failed
    obtain ⟨failure, _, hfails⟩ := Reduction.reduceInOrder_error 0 ⟨counts, early⟩ h.valid
      (h.length.trans hcovers.symm) (by omega) hcount
      (Nat.le_of_eq (Temporary.size_of_allocate hgranted).symm) (horder _) hpure
      (by omega) (by rwa [hcovers]) ⟨index, hcovers.symm ▸ hindex, panic, hitem⟩
    rw [hreduced] at hfails
    cases hfails

/-! ## The writing launch -/

/-- What a block of the writing launch does some of whose clones may panic. -/
structure Endures (task : Task α) (items : Nat → Nat) (threads block : Nat)
    (requests : List (Request Nat α)) (stops : Nat → Stop Nat α Unit) : Prop where
  ends : Block.EndWell threads stops ∨ Block.Breaks threads stops
  clones : ∀ lane < threads, ∀ panic, stops lane = .faulted panic →
    ∃ value ∈ selected items task.input.values 0 task.input.length,
      task.element.clone value = .error panic
  outside : ∀ slot, total items task.cut.total ≤ slot → ∀ place < task.element.size,
    pieces task.element slot place requests = []

/-- **The writing launch has a plan also if clones panic**: its blocks write no other slots, and only such a
panic stops them. -/
theorem Prepared.exists_plan_endures {items : Nat → Nat} {calls : Array Nat}
    (prepared : Prepared config task.patched items) (hitems : ∀ index, items index ≤ 1)
    (hgives : ∀ index < task.cut.total, flags.item index (calls[index]?.getD 0) = .ok (items index)) :
    ∃ plan : Plan (kernel flags task) (config.geometry task.cut.count) calls, ∀ block < task.cut.count,
      Endures task items config.width block (plan.requests block) (plan.stops block) := by
  -- what the blocks would do if no clone panicked
  obtain ⟨usual, houtcome⟩ := prepared.exists_plan flags hitems hgives
  have hfits := prepared.fits
  have hplan := usual.exists_curtailed (kernel_stricter task flags) fun block hblock =>
    (houtcome block hblock).ends (hfits block hblock)
  rw [kernel_patched] at hplan
  obtain ⟨plan, hcurtailed⟩ := hplan
  refine ⟨plan, fun block hblock => ⟨(hcurtailed block hblock).ends, ?_, ?_⟩⟩
  all_goals
    have hstop : task.cut.start (block + 1) ≤ task.cut.total := Decomposition.start_le_total hblock
  · intro lane hlane panic hpanic
    obtain ⟨request, hr, hrefused⟩ := (hcurtailed block hblock).refused lane hlane panic hpanic
    obtain ⟨value, hcloned, hclone⟩ := clone_of_refused task hrefused
    have hvalue : value ∈ selected items task.input.values (task.cut.start block)
        (task.cut.start (block + 1) - task.cut.start block) :=
      (houtcome block hblock).clones request hr value hcloned
    have hcovers : task.cut.total = task.input.length := prepared.covers
    obtain ⟨index, hle, hlt, hselected⟩ := mem_selected.mp hvalue
    exact ⟨value, mem_selected.mpr ⟨index, Nat.zero_le _, by omega, hselected⟩, hclone⟩
  · intro slot hslot place hplace
    have hmono : total items (task.cut.start (block + 1)) ≤ total items task.cut.total :=
      total_mono items hstop
    have hcount := total_start_add items task.cut block
    have hlength : (selected items task.input.values (task.cut.start block)
        (task.cut.start (block + 1) - task.cut.start block)).length = _ :=
      prepared.length_selected hitems hblock
    have hbehind : total items (task.cut.start block) + (selected items task.input.values
        (task.cut.start block) (task.cut.start (block + 1) - task.cut.start block)).length ≤ slot := by
      rw [hlength]
      exact Nat.le_trans (Nat.le_of_eq hcount) (Nat.le_trans hmono hslot)
    have hpieces := ((houtcome block hblock).writes (hfits block hblock)).outside slot (.inr hbehind) place
      hplace
    refine List.filterMap_eq_nil_iff.mpr fun request hr => ?_
    have hnone := List.filterMap_eq_nil_iff.mp hpieces request ((hcurtailed block hblock).subset hr)
    exact (task.element.piece?_patched request slot place).symm.trans hnone

/-- The slots behind those for what is kept are not written by blocks of the writing launch. -/
theorem getElem?_after_of_endures {items : Nat → Nat} {calls : Array Nat} (hsize : 0 < task.element.size)
    {plan : Plan (kernel flags task) (config.geometry task.cut.count) calls}
    (hendures : ∀ block < task.cut.count,
      Endures task items config.width block (plan.requests block) (plan.stops block))
    {requests : List (Request Nat α)}
    (hrequests : ∀ request ∈ requests, ∃ block < task.cut.count, request ∈ plan.requests block)
    {slot : Nat} (hslot : total items task.cut.total ≤ slot) (store : Store α) :
    (store.after task.element requests).output[slot]? = store.output[slot]? := by
  refine Store.getElem?_after_of_no_pieces hsize (fun place hplace => ?_) store
  refine List.filterMap_eq_nil_iff.mpr fun request hr => ?_
  obtain ⟨block, hblock, hr⟩ := hrequests request hr
  exact List.filterMap_eq_nil_iff.mp ((hendures block hblock).outside slot hslot place hplace) request hr

/-- A clone has panicked while the blocks of a compaction wrote: the failure tells its message, and only the
slots for what is kept may have changed. -/
structure Interrupted (element : Element α) (kept : List α) (before : Store α)
    (result : Except Failure Nat × Store α) : Prop where
  reports : ∃ value ∈ kept, ∃ panic block, element.clone value = .error panic ∧
    panic.isRelease = false ∧ result.1 = .error (.error (.kernelFault block panic.report))
  behind : ∀ slot, kept.length ≤ slot → result.2.output[slot]? = before.output[slot]?

/-- The host could not start a lane of a block while the blocks of a compaction wrote: the failure tells so, and only
the slots for what is kept may have changed. -/
structure CutShort (spawner : Spawner) (config : LaunchConfig) (kept : List α) (before : Store α)
    (result : Except Failure Nat × Store α) : Prop where
  reports : ∃ failure, spawner.Refuses config failure ∧ result.1 = .error failure
  behind : ∀ slot, kept.length ≤ slot → result.2.output[slot]? = before.output[slot]?

section Writing

variable {items : Nat → Nat} (hlength : input.length < Word.allocationLimit) (hsize : 0 < element.size)
  (hbytes : before.output.size * element.size < Word.limit)
  (hcounting : ∀ blocks, (orders.counting blocks).Perm (List.range blocks))
  (hwriting : ∀ blocks, (orders.writing blocks).Perm (List.range blocks)) (hitems : ∀ index, items index ≤ 1)
  (hgives : ∀ index < input.length, ∀ earlier, flags.item index earlier = .ok (items index))

include hlength hbytes hcounting hitems hgives

/-- A compaction whose flags are those that were counted has a plan for its writing launch. -/
theorem Arrives.exists_enduring
    (h : Arrives orders config element input flags address before task store) :
    task.cut.total = input.length ∧ 0 < task.cut.count ∧
      ∃ plan : Plan (kernel flags task) (config.geometry task.cut.count) store.journal.calls,
        ∀ block < task.cut.count,
          Endures task items config.width block (plan.requests block) (plan.stops block) := by
  obtain rfl : task.element = element := by rw [h.same]
  obtain rfl : task.input = input := by rw [h.same]
  obtain ⟨prepared, _⟩ := h.patched.prepared hlength hbytes task.element.exists_clone_patched hcounting
    hitems fun index hindex => hgives index hindex _
  have hcovers : task.cut.total = task.input.length := prepared.covers
  exact ⟨hcovers, prepared.count, prepared.exists_plan_endures hitems
    fun index hindex => hgives index (hcovers ▸ hindex) (store.journal.calls[index]?.getD 0)⟩

include hsize hwriting

/-- **Only a clone makes the writing launch fail**, if its flags are those that were counted and the host starts
every lane. -/
theorem Arrives.interrupted
    (h : Arrives orders config element input flags address before task store)
    (hfails : ∃ failure,
      (compactFlags orders config element input flags address before).1 = .error failure) :
    Interrupted element (selected items input.values 0 input.length) before
      (compactFlags orders config element input flags address before) := by
  obtain ⟨hcovers, hcount, plan, hendures⟩ :=
    h.exists_enduring hlength hbytes hcounting hitems hgives
  obtain rfl : task.element = element := by rw [h.same]
  obtain rfl : task.input = input := by rw [h.same]
  obtain ⟨⟨requests, hrequests, houtput⟩, hreports⟩ := plan.launchInOrder_leaves h.valid hcount
    (hwriting _) rfl fun block hblock => (hendures block hblock).ends
  rw [h.compactFlags_eq] at hfails ⊢
  cases hlaunch : launchInOrder orders.writing config (kernel flags task) task.cut.count config.width
    store with
  | mk result after =>
    rw [hlaunch] at houtput hreports hfails
    cases result with
    | ok _ =>
      obtain ⟨failure, hfailure⟩ := hfails
      cases hfailure
    | error failure =>
      obtain ⟨block, hblock, lane, hlane, panic, hpanic, hrelease, rfl⟩ := hreports failure rfl
      refine ⟨?_, fun slot hslot => ?_⟩
      · obtain ⟨value, hvalue, hclone⟩ := (hendures block hblock).clones lane hlane panic hpanic
        exact ⟨value, hvalue, panic, block, hclone, hrelease, rfl⟩
      · have hkept : (selected items task.input.values 0 task.input.length).length =
            total items task.input.length := length_selected_zero hitems (Nat.le_refl _)
        rw [hkept, ← hcovers] at hslot
        show after.output[slot]? = _
        rw [houtput, ← h.output]
        exact getElem?_after_of_endures hsize hendures hrequests hslot _

/-- **A host that cannot start a lane while the blocks write** cuts the compaction short. -/
theorem StopsWriting.cutShort {spawner : Spawner} {result : Except Failure Nat × Store α}
    (h : StopsWriting spawner orders config element input flags address before result) :
    CutShort spawner config (selected items input.values 0 input.length) before result := by
  obtain ⟨task, store, harrives, block, cause, ⟨hrefusal, done, rest, horder, hdone⟩, hanswer⟩ := h.reached
  refine ⟨⟨_, ⟨block, cause, hrefusal, rfl⟩, hanswer⟩, fun slot hslot => ?_⟩
  obtain ⟨hcovers, hcount, plan, hendures⟩ :=
    harrives.exists_enduring hlength hbytes hcounting hitems hgives
  obtain rfl : task.element = element := by rw [harrives.same]
  obtain rfl : task.input = input := by rw [harrives.same]
  -- the blocks that have run are some of those that the order names
  have hnodup : (done ++ block :: rest).Nodup :=
    horder ▸ (hwriting task.cut.count).nodup_iff.mpr List.nodup_range
  have hlt : ∀ other ∈ done, other < task.cut.count := fun other hother =>
    List.mem_range.mp ((hwriting task.cut.count).mem_iff.mp
      (horder ▸ List.mem_append_left _ hother))
  have hready : ∀ other ∈ done, plan.Ready other (store.launched config task.cut.count) :=
    fun other _ => plan.ready_of_calls rfl other
  obtain ⟨⟨requests, hrequests, houtput⟩, _⟩ :=
    plan.runBlocks_leaves (List.nodup_append.mp hnodup).1 hlt hready
      fun other hother => (hendures other (hlt other hother)).ends
  rw [hdone] at houtput
  have hkept : (selected items task.input.values 0 task.input.length).length =
      total items task.input.length := length_selected_zero hitems (Nat.le_refl _)
  rw [hkept, ← hcovers] at hslot
  rw [houtput, ← harrives.output]
  refine getElem?_after_of_endures hsize hendures (fun request hr => ?_) hslot _
  obtain ⟨other, hother, hr⟩ := hrequests request hr
  exact ⟨other, hlt other hother, hr⟩

end Writing

end Flags

/-! ## All compactions -/

/-- Whether a predicate wants a value; one that panics does not. -/
def wants (keeps : S → Except Panic Bool) (value : S) : Bool := (keeps value).toOption.getD false

/-- Flags that a predicate of the stencil value gives, whenever they are asked for. -/
structure FlagsOf (flags : View Nat) (keeps : S → Except Panic Bool) (stencil : Array S) (length : Nat) :
    Prop where
  pure : ∀ index earlier later, flags.item index earlier = flags.item index later
  small : ∀ index, flags.itemOr 0 index 0 ≤ 1
  item : ∀ index < length, ∃ value, stencil[index]? = some value ∧
    flags.item index 0 = (keeps value).map fun answer => if answer then 1 else 0

/-- What a compaction leaves that fails. -/
inductive Leaves (spawner : Spawner) (config : LaunchConfig) (element : Element α) (input : Placed α)
    (keeps : S → Except Panic Bool) (stencil : Array S) (before : Store α)
    (result : Except Failure Nat × Store α) : Prop
  /-- The output is as it was. -/
  | untouched (same : result.2.output = before.output)
  /-- The predicate has raised the signal that releases a lane from a barrier. -/
  | released {index : Nat} {value : S} (inside : index < input.length)
      (found : stencil[index]? = some value) (raises : keeps value = .error (.raised .barrierPoisoned))
  /-- All elements have been looked at, and then the clone of one that is kept has panicked. -/
  | torn (answered : ∀ index < input.length, ∃ value answer,
        stencil[index]? = some value ∧ keeps value = .ok answer)
      (interrupted : Interrupted element (kept (wants keeps) input.values stencil) before result)
  /-- All elements have been looked at, and then the host could not start a lane. -/
  | unstarted (answered : ∀ index < input.length, ∃ value answer,
        stencil[index]? = some value ∧ keeps value = .ok answer)
      (cutShort : CutShort spawner config (kept (wants keeps) input.values stencil) before result)

/-- Whether a compaction leaves its output if it fails, but for release signals, clones that panic and lanes that the
host does not start while the blocks write. -/
def FailsClean (spawner : Spawner) (config : LaunchConfig) (element : Element α) (input : Placed α)
    (keeps : S → Except Panic Bool) (stencil : Array S) (before : Store α)
    (result : Except Failure Nat × Store α) : Prop :=
  (∃ failure, result.1 = .error failure) →
    Leaves spawner config element input keeps stencil before result

/-- The flag that a mask gives an element. -/
theorem maskFlags_item (mask : Mask) {length : Nat} (hmask : length ≤ mask.length) (index earlier : Nat) :
    ((mask.take length).view.map fun bit => if bit then 1 else 0).item index earlier =
      if index < length then .ok (if mask.bit index then 1 else 0)
      else .error (.bitOutOfBounds length index) := by
  have hlength : (mask.take length).length = length := Nat.min_eq_left hmask
  show (do return if ← (mask.take length).view.item index earlier then 1 else 0) = _
  simp only [Mask.view, hlength]
  by_cases hindex : index < length
  · have hbit : (mask.take length).bit index = mask.bit index := by
      simp only [Mask.bit, hlength, hindex, Nat.lt_of_lt_of_le hindex hmask]
      rfl
    rw [if_pos hindex, if_pos hindex, hbit]
    rfl
  · rw [if_neg hindex, if_neg hindex]
    rfl

/-- **A compaction that comes to its writing launch** has had an answer of its predicate for each element, if that never
raises the release signal of a barrier. -/
theorem FlagsOf.exists_answer {orders : Orders} {config : LaunchConfig} {element : Element α} {input : Placed α}
    {flags : View Nat} {keeps : S → Except Panic Bool} {stencil : Array S} {address : Nat} {before store : Store α}
    {task : Task α} (hflags : FlagsOf flags keeps stencil input.length)
    (harrives : Arrives orders config element input flags address before task store)
    (hlength : input.length < Word.allocationLimit)
    (hcounting : ∀ blocks, (orders.counting blocks).Perm (List.range blocks))
    (hspeaks : ∀ index < input.length, ∀ value, stencil[index]? = some value →
      keeps value ≠ .error (.raised .barrierPoisoned)) :
    ∀ index < input.length, ∃ value answer, stencil[index]? = some value ∧ keeps value = .ok answer := by
  have hflag := harrives.exists_flag hlength hcounting hflags.pure hflags.small
    fun index hindex panic hpanic => by
      obtain ⟨value, hvalue, hitem⟩ := hflags.item index hindex
      rw [hpanic] at hitem
      cases hkeeps : keeps value with
      | ok answer =>
        rw [hkeeps] at hitem
        cases hitem
      | error raised =>
        rw [hkeeps] at hitem
        cases hitem
        have hne : panic ≠ .raised .barrierPoisoned := by
          rintro rfl
          exact hspeaks index hindex value hvalue hkeeps
        simpa [Panic.isRelease] using hne
  intro index hindex
  obtain ⟨flag, hflag⟩ := hflag index hindex
  obtain ⟨value, hvalue, hitem⟩ := hflags.item index hindex
  cases hkeeps : keeps value with
  | ok answer => exact ⟨value, answer, hvalue, hkeeps⟩
  | error panic =>
    -- the counting launch would have failed
    rw [hflag, hkeeps] at hitem
    cases hitem

section All

variable {orders : Orders} {config : LaunchConfig} {element : Element α} {input : Placed α}
  {before : Store α} (hinput : input.length * element.size < Word.allocationLimit)
  (hbytes : before.output.size * element.size < Word.limit)
  (hzero : element.size = 0 → ∀ a b : α, a = b)

include hinput hbytes

/-- What a compaction by the flags of a predicate leaves that has come to its writing launch and failed. -/
theorem leaves_of_arrives {flags : View Nat} {keeps : S → Except Panic Bool} {stencil : Array S} {address : Nat}
    {task : Task α} {store : Store α} {spawner : Spawner} {result : Except Failure Nat × Store α}
    (hsize : 0 < element.size) (hstencil : input.length ≤ stencil.size)
    (hcounting : ∀ blocks, (orders.counting blocks).Perm (List.range blocks))
    (hwriting : ∀ blocks, (orders.writing blocks).Perm (List.range blocks))
    (hflags : FlagsOf flags keeps stencil input.length)
    (harrives : Arrives orders config element input flags address before task store)
    (hfails : (result = compactFlags orders config element input flags address before ∧
        ∃ failure, result.1 = .error failure) ∨
      StopsWriting spawner orders config element input flags address before result) :
    Leaves spawner config element input keeps stencil before result := by
  have hlength : input.length < Word.allocationLimit :=
    Nat.lt_of_le_of_lt (Nat.le_mul_of_pos_right _ hsize) hinput
  by_cases hreleased : ∃ index < input.length, ∃ value, stencil[index]? = some value ∧
    keeps value = .error (.raised .barrierPoisoned)
  · obtain ⟨index, hindex, value, hvalue, hraises⟩ := hreleased
    exact .released hindex hvalue hraises
  have hanswered := hflags.exists_answer harrives hlength hcounting fun index hindex value hvalue hraises =>
    hreleased ⟨index, hindex, value, hvalue, hraises⟩
  have hgives : ∀ index < input.length, ∀ earlier,
      flags.item index earlier = .ok (flagOf (fun _ => wants keeps) stencil index) := by
    intro index hindex earlier
    obtain ⟨value, answer, hvalue, hkeeps⟩ := hanswered index hindex
    obtain ⟨value', hvalue', hitem⟩ := hflags.item index hindex
    obtain rfl := Option.some.inj (hvalue.symm.trans hvalue')
    rw [hflags.pure index earlier 0, hitem, hkeeps, flagOf_of_some hvalue, wants, hkeeps]
    rfl
  have hkept : selected (flagOf (fun _ => wants keeps) stencil) input.values 0 input.length =
      kept (wants keeps) input.values stencil := selected_flagOf (wants keeps) hstencil
  rcases hfails with ⟨rfl, hfails⟩ | hstops
  · refine .torn hanswered ?_
    rw [← hkept]
    exact harrives.interrupted hlength hsize hbytes hcounting hwriting (flagOf_le _ stencil) hgives hfails
  · refine .unstarted hanswered ?_
    rw [← hkept]
    exact hstops.cutShort hlength hsize hbytes hcounting hwriting (flagOf_le _ stencil) hgives

include hzero

/-- **A failed compaction by the flags of a predicate.** -/
theorem compactFlagsOn_failsClean (hosts : Hosts) {flags : View Nat} {keeps : S → Except Panic Bool}
    {stencil : Array S} (address : Nat) (hstencil : input.length ≤ stencil.size)
    (hcounting : ∀ blocks, (orders.counting blocks).Perm (List.range blocks))
    (hwriting : ∀ blocks, (orders.writing blocks).Perm (List.range blocks))
    (hflags : FlagsOf flags keeps stencil input.length) :
    FailsClean hosts.writing config element input keeps stencil before
      (compactFlagsOn hosts orders config element input flags address before) := by
  intro hfails
  rcases compactFlagsOn_cases hosts orders element address before config input flags with
    hsame | ⟨failure, after, _, houtput, hanswer⟩ | hstops
  · rcases Nat.eq_zero_or_pos element.size with hempty | hsize
    · -- values without bytes cannot be told apart
      rw [hsame]
      refine .untouched (Element.eq_of_content hzero (size_compactFlags ..) fun _ place hplace => ?_)
      omega
    rcases arrives_or_output_eq orders config element input flags address before with
      ⟨task, store, harrives⟩ | houtput
    · exact leaves_of_arrives hinput hbytes hsize hstencil hcounting hwriting hflags harrives
        (.inl ⟨hsame, hfails⟩)
    · rw [hsame]
      exact .untouched houtput
  · rw [hanswer]
    exact .untouched houtput
  · rcases Nat.eq_zero_or_pos element.size with hempty | hsize
    · refine .untouched (Element.eq_of_content hzero hstops.size_output fun _ place hplace => ?_)
      omega
    obtain ⟨task, store, harrives, _⟩ := hstops.reached
    exact leaves_of_arrives hinput hbytes hsize hstencil hcounting hwriting hflags harrives (.inr hstops)

/-- A failed compaction by a predicate that looks at the stencil value alone. -/
theorem copyIfOn_failsClean (hosts : Hosts) (keeps : S → Except Panic Bool) (stencil : Array S) (address : Nat)
    (hcounting : ∀ blocks, (orders.counting blocks).Perm (List.range blocks))
    (hwriting : ∀ blocks, (orders.writing blocks).Perm (List.range blocks)) :
    FailsClean hosts.writing config element input keeps stencil before
      (copyIfOn hosts orders config element input stencil (.ofPartial keeps) address before) := by
  by_cases hstencil : stencil.size < input.length
  · rw [copyIfOn, if_pos hstencil]
    exact fun _ => .untouched rfl
  · have hle := Nat.le_of_not_lt hstencil
    rw [copyIfOn, if_neg hstencil]
    refine compactFlagsOn_failsClean hinput hbytes hzero hosts address hle hcounting hwriting
      ⟨fun _ _ _ => rfl, fun index => View.itemOr_flags_le _ _ index 0, fun index hindex => ?_⟩
    have hvalue : stencil[index]? = some stencil[index] := Array.getElem?_eq_getElem (by omega)
    exact ⟨stencil[index], hvalue, item_stencilFlags_eq (.ofPartial keeps) hle hindex hvalue 0⟩

/-- A failed compaction by a mask. -/
theorem copyIfMaskOn_failsClean (hosts : Hosts) (mask : Mask) (address : Nat) :
    FailsClean hosts.writing config element input (fun bit => .ok bit) mask.toList.toArray before
      (copyIfMaskOn hosts config element input mask address before) := by
  by_cases hmask : mask.length < input.length
  · rw [copyIfMaskOn, if_pos hmask]
    exact fun _ => .untouched rfl
  · have hle := Nat.le_of_not_lt hmask
    have hlength : mask.toList.toArray.size = mask.length := by simp [Mask.toList]
    rw [copyIfMaskOn, if_neg hmask]
    refine compactFlagsOn_failsClean hinput hbytes hzero hosts address (by omega)
      config.scheduling.perm_order config.scheduling.perm_order
      ⟨fun _ _ _ => rfl, fun index => ?_, fun index hindex => ?_⟩
    · unfold View.itemOr
      rw [maskFlags_item mask hle]
      split
      · cases mask.bit index <;> decide
      · exact Nat.zero_le 1
    · rw [maskFlags_item mask hle, if_pos hindex]
      exact ⟨mask.bit index, by simp [Mask.toList, show index < mask.length by omega], rfl⟩

/-- **Failed compactions leave their output as it was**, whatever goes wrong on whatever hosts, if the clones of the
elements that are kept do not panic, the predicate does not raise the release signal, and the host of the writing
launch starts every lane.  If such a clone panics or such a lane is not started, then the failure tells so, and what
lies behind the slots for the elements that are kept is as it was. -/
theorem failures_leave_output (hosts : Hosts) (stencil : Array S) (keeps : S → Except Panic Bool)
    (wants : α → Except Panic Bool) (mask : Mask) (address : Nat)
    (hcounting : ∀ blocks, (orders.counting blocks).Perm (List.range blocks))
    (hwriting : ∀ blocks, (orders.writing blocks).Perm (List.range blocks)) :
    FailsClean hosts.writing config element input keeps stencil before
      (copyIfOn hosts orders config element input stencil (.ofPartial keeps) address before) ∧
    FailsClean hosts.writing config element input (fun value => (keeps value).map not) stencil before
      (removeCopyIfOn hosts orders config element input stencil (.ofPartial keeps) address before) ∧
    FailsClean hosts.writing config element input wants input.values before
      (copyIfUnstenciledOn hosts orders config element input (.ofPartial wants) address before) ∧
    FailsClean hosts.writing config element input (fun bit => .ok bit) mask.toList.toArray before
      (copyIfMaskOn hosts config element input mask address before) :=
  ⟨copyIfOn_failsClean hinput hbytes hzero hosts keeps stencil address hcounting hwriting,
    copyIfOn_failsClean hinput hbytes hzero hosts _ stencil address hcounting hwriting,
    copyIfOn_failsClean hinput hbytes hzero hosts wants input.values address hcounting hwriting,
    copyIfMaskOn_failsClean hinput hbytes hzero hosts mask address⟩

end All

/-! ## A clone that panics -/

/-- Values that can be cloned, except 3. -/
def fragile : Element Nat where
  size := 8
  image := none
  clone value := if value = 3 then .error (.raised (.composed "clone of 3")) else .ok value

/-- One block of one lane. -/
def soloConfig : LaunchConfig := {
  threadsPerBlock := 1, multiprocessors := 1, maxBlocks := some 1, scheduling := .sequential }

/-- The first two elements have been written when the clone of the third one panics. -/
theorem failures_leave_output_fragile :
    let result := copyIf soloConfig fragile ⟨#[1, 2, 3, 4], 0⟩ #[(), (), (), ()]
      (.ofPartial fun _ => .ok true) 0 ⟨#[0, 0, 0, 0], .start 4⟩
    result.2.output = #[1, 2, 0, 0] ∧
      Interrupted fragile [1, 2, 3, 4] ⟨#[0, 0, 0, 0], .start 4⟩ result := by
  intro result
  have houtput : result.2.output = #[1, 2, 0, 0] := by decide +kernel
  have hfails : ∃ failure, result.1 = .error failure :=
    ⟨.error (.kernelFault 0 "clone of 3"), by decide +kernel⟩
  have hclean := (failures_leave_output (by decide) (by decide) nofun .willing
    #[(), (), (), ()] (fun _ => .ok true) (fun _ => .ok true) ⟨#[], 0, 0, by decide⟩ 0 soloConfig.scheduling.perm_order
    soloConfig.scheduling.perm_order).1 hfails
  refine ⟨houtput, ?_⟩
  cases hclean with
  | untouched same => exact absurd (houtput.symm.trans same) (by decide)
  | released inside found raises => cases raises
  | torn answered interrupted => exact interrupted
  | unstarted answered cutShort =>
    obtain ⟨failure, ⟨block, cause, hcause, _⟩, _⟩ := cutShort.reports
    rw [Hosts.willing, Spawner.refusal?_willing] at hcause
    cases hcause

/-- The host has a thread for every lane but that of the second block of the writing launch, and what the first block
has written stays. -/
example :
    let config := { soloConfig with maxBlocks := some 2 }
    let scarce : Spawner := ⟨fun block _ => if block = 1 then some "no more threads" else none⟩
    let result := copyIfOn ⟨.willing, scarce⟩ (.ofConfig config) config (.cloned 8) ⟨#[1, 2, 3, 4], 0⟩
      #[(), (), (), ()] (.ofPartial fun _ => .ok true) 0 ⟨#[0, 0, 0, 0], .start 4⟩
    result.1 = .error (.error (.launchFailed 1 "no more threads")) ∧ result.2.output = #[1, 2, 0, 0] := by
  decide +kernel

/-- A predicate that raises the release signal leaves its block with no count, and what the block then
writes does not fit. -/
example :
    let keeps : Nat → Except Panic Bool := fun value =>
      if value = 3 then .error (.raised .barrierPoisoned) else .ok true
    let result := copyIf soloConfig (.cloned 8) ⟨#[1, 2, 3], 0⟩ #[1, 2, 3] (.ofPartial keeps) 0
      ⟨#[0], .start 3⟩
    result.1.toOption = none ∧ result.2.output = #[1] := by decide +kernel

end Compaction

end BlockMachine
