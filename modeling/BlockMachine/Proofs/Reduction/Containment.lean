import BlockMachine.Proofs.Reduction.Alarms
import BlockMachine.Proofs.Reduction.CheckedSums
import BlockMachine.Proofs.Reduction.Results

/-!
# Faults that stay with their blocks

The view or the operator of a reduction may panic.  A block that comes upon a panic writes nothing, and all others
write what they would write without it, or do not begin.

* `Reduction.Kept` — what a reduction leaves: each slot holds what it held before, or the result of its block.
* `Reduction.Contained` — what it answers and leaves some of whose blocks panic.
* `Reduction.Confines` — both, for any order of the blocks and whatever turns the lanes take.
* `Reduction.faults_stay` — so it is for all views and operators.
-/

set_option autoImplicit false

namespace BlockMachine

open Request BlockScan

/-- A block does not begin both before and after another one. -/
theorem Scheduling.Before.not_or {scheduling : Scheduling} {block other : Nat} (h : scheduling.Before block other) :
    ¬ (other = block ∨ scheduling.Before other block) := by
  cases scheduling with
  | parallel => exact h.elim
  | sequential =>
    have hlt : block < other := h
    rintro (rfl | hgt)
    · exact Nat.lt_irrefl _ hlt
    · exact Nat.lt_asymm hlt hgt
  | reversed =>
    have hlt : other < block := h
    rintro (rfl | hgt)
    · exact Nat.lt_irrefl _ hlt
    · exact Nat.lt_asymm hlt hgt

namespace Reduction

variable {σ : Type}

/-! ## What the blocks leave -/

/-- What is left of the slots of a reduction: each holds what it held before, or the result of its block; and all
behind them is as it was. -/
structure Kept (count : Nat) (result : Nat → Option σ) (before after : Array σ) : Prop where
  slots : ∀ block < count, after[block]? = before[block]? ∨
    ∃ total, result block = some total ∧ after[block]? = some total
  behind : ∀ slot, count ≤ slot → after[slot]? = before[slot]?

section Requests

variable {count : Nat} {result : Nat → Option σ} {planned : Nat → List (Request σ σ)}
  (hwrites : ∀ block < count, WritesResult block (result block) (planned block))
  {requests : List (Request σ σ)} (hplanned : ∀ request ∈ requests, ∃ block < count, request ∈ planned block)

include hwrites

/-- Blocks write their results only, each to the slot of its number. -/
theorem eq_of_write {block : Nat} (hblock : block < count) {slot : Nat} {copy : σ}
    (h : .write slot copy ∈ planned block) : slot = block ∧ result block = some copy := by
  rcases (hwrites block hblock).only _ h with hsilent | ⟨total, hresult, heq⟩
  · exact hsilent.elim
  · cases heq
    exact ⟨rfl, hresult⟩

include hplanned

theorem whole_of_planned : ∀ request ∈ requests, request.Whole := by
  intro request hr
  obtain ⟨block, hblock, hr⟩ := hplanned request hr
  rcases (hwrites block hblock).only request hr with hsilent | ⟨total, _, rfl⟩
  · exact hsilent.whole
  · trivial

/-- A slot with a result keeps what it holds until the result is written, -/
theorem unchanged_after {slot : Nat} (h : ∀ copy, (.write slot copy : Request σ σ) ∉ requests) (store : Store σ) :
    (store.after (Element.cloned 1) requests).output[slot]? = store.output[slot]? :=
  Store.getElem?_after_of_unwritten (whole_of_planned hwrites hplanned) h store

/-- and then holds that. -/
theorem result_after {block : Nat} {total : σ} (h : .write block total ∈ requests) {store : Store σ}
    (hsize : count ≤ store.output.size) :
    result block = some total ∧ (store.after (Element.cloned 1) requests).output[block]? = some total := by
  have hresult : ∀ copy, (.write block copy : Request σ σ) ∈ requests →
      block < count ∧ result block = some copy := by
    intro copy hcopy
    obtain ⟨other, hother, hmem⟩ := hplanned _ hcopy
    obtain ⟨rfl, hresult⟩ := eq_of_write hwrites hother hmem
    exact ⟨hother, hresult⟩
  obtain ⟨hblock, htotal⟩ := hresult total h
  refine ⟨htotal, ?_⟩
  rw [Store.getElem?_after_of_written (whole_of_planned hwrites hplanned) (fun copy hcopy =>
      Option.some.inj ((hresult copy hcopy).2.symm.trans htotal)) h store,
    Array.getElem?_eq_getElem (Nat.lt_of_lt_of_le hblock hsize), Option.map_some]

/-- **Planned requests leave results or what was there before.** -/
theorem kept_after {store : Store σ} (hsize : count ≤ store.output.size) :
    Kept count result store.output (store.after (Element.cloned 1) requests).output := by
  refine ⟨fun block hblock => ?_, fun slot hslot => unchanged_after hwrites hplanned (fun copy hcopy => ?_) store⟩
  · by_cases hwritten : ∃ total, (.write block total : Request σ σ) ∈ requests
    · obtain ⟨total, hmem⟩ := hwritten
      exact .inr ⟨total, result_after hwrites hplanned hmem hsize⟩
    · exact .inl (unchanged_after hwrites hplanned (fun copy hcopy => hwritten ⟨copy, hcopy⟩) store)
  · obtain ⟨block, hblock, hmem⟩ := hplanned _ hcopy
    obtain ⟨rfl, _⟩ := eq_of_write hwrites hblock hmem
    omega

/-- If all planned requests are made, the results are there. -/
theorem whole_after (hmade : ∀ block < count, planned block ⊆ requests)
    (hall : ∀ block < count, ∃ total, result block = some total) {store : Store σ}
    (hsize : count ≤ store.output.size) :
    ∀ block < count, (store.after (Element.cloned 1) requests).output[block]? = result block := by
  intro block hblock
  obtain ⟨total, hresult⟩ := hall block hblock
  have hmem := hmade block hblock ((hwrites block hblock).made total hresult)
  rw [hresult]
  exact (result_after hwrites hplanned hmem hsize).2

end Requests

/-! ## What a launch leaves that reports a panic -/

/-- What a reduction answers and leaves that reports a panic of a block: this block has no result and its slot is as
it was; if blocks begin one at a time, those before it have written their results, and those behind it nothing. -/
structure Contained (told : Panic → Prop) (scheduling : Scheduling) (count : Nat) (result : Nat → Option σ)
    (before : Array σ) (answer : Except Failure Unit) (after : Array σ) (block : Nat) : Prop where
  lt : block < count
  panics : result block = none
  reports : ∃ panic, told panic ∧ answer = .error (.error (.kernelFault block panic.report))
  unchanged : after[block]? = before[block]?
  earlier : ∀ other < count, scheduling.Before other block →
    ∃ total, result other = some total ∧ after[other]? = some total
  later : ∀ other < count, scheduling.Before block other → after[other]? = before[other]?

section Launches

variable {config : LaunchConfig} {blank : σ} {op : σ → σ → Except Panic σ} {view : View σ}
  {cut : Decomposition} {length : Nat} {calls : Array Nat}
  {plan : Plan (kernel blank op view cut length) (config.geometry cut.count) calls}
  {told : Panic → Prop} {result : Nat → Option σ}
  (hstops : ∀ block < cut.count,
    StopsUnless told config.width (∃ total, result block = some total) (plan.stops block))
  (hwrites : ∀ block < cut.count, WritesResult block (result block) (plan.requests block))

include hstops hwrites

/-- **What the requests leave of a launch that reports a panic of a block.** -/
theorem contained_of_breaks {scheduling : Scheduling} {block : Nat} {panic : Panic}
    {requests : List (Request σ σ)} (h : plan.Breaks scheduling block panic requests) {store : Store σ}
    (hsize : cut.count ≤ store.output.size) :
    Contained told scheduling cut.count result store.output
      (.error (.error (.kernelFault block panic.report))) (store.after (Element.cloned 1) requests).output
      block := by
  obtain ⟨block', hblock, hunsound, hbefore, panic', htold, hreport⟩ := blames_of_breaks hstops h
  obtain ⟨rfl, hreport⟩ := LibraryError.kernelFault.inj (Failure.error.inj (Except.error.inj hreport))
  have hnone : result block = none := by
    cases hresult : result block with
    | none => rfl
    | some total => exact absurd ⟨total, hresult⟩ hunsound
  refine ⟨hblock, hnone, ⟨panic', htold, by rw [hreport]⟩, ?_, fun other hother hprior => ?_,
    fun other hother hprior => ?_⟩
  · refine unchanged_after hwrites h.planned (fun copy hcopy => ?_) store
    obtain ⟨other, hother, hmem⟩ := h.planned _ hcopy
    obtain ⟨rfl, hresult⟩ := eq_of_write hwrites hother hmem
    rw [hnone] at hresult
    cases hresult
  · obtain ⟨total, hresult⟩ := hbefore other hother hprior
    have hmem := h.made other hother (.inr hprior) _ ((hwrites other hother).made total hresult)
    exact ⟨total, result_after hwrites h.planned hmem hsize⟩
  · refine unchanged_after hwrites h.planned (fun copy hcopy => ?_) store
    have hone : scheduling ≠ .parallel := by
      rintro rfl
      exact hprior
    obtain ⟨third, hthird, hor, hmem⟩ := h.only hone _ hcopy
    obtain ⟨rfl, _⟩ := eq_of_write hwrites hthird hmem
    exact hprior.not_or hor

omit hwrites in
/-- A block ends well or breaks off. -/
theorem ends_of_stopsUnless : ∀ block < cut.count, Block.EndWell config.width (plan.stops block) ∨
    Block.Breaks config.width (plan.stops block) := by
  intro block hblock
  by_cases hsound : ∃ total, result block = some total
  · exact .inl ((hstops block hblock).well hsound)
  · exact .inr ((hstops block hblock).breaks hsound)

omit hwrites in
theorem exists_breaks (hnone : ∃ block < cut.count, result block = none) :
    ∃ block < cut.count, Block.Breaks config.width (plan.stops block) := by
  obtain ⟨block, hblock, hresult⟩ := hnone
  refine ⟨block, hblock, (hstops block hblock).breaks ?_⟩
  rintro ⟨total, htotal⟩
  rw [hresult] at htotal
  cases htotal

variable {store : Store σ} (hcalls : store.journal.calls = calls) (hsize : cut.count ≤ store.output.size)

section Runs

variable {scheduling : Scheduling} {places : List (Nat × Nat)}

include hcalls hsize

omit hstops in
/-- **At any moment a slot holds the result of its block or what it held before.** -/
theorem kept_run (scheduling : Scheduling) (places : List (Nat × Nat)) : Kept cut.count result store.output
    (Grid.run scheduling (kernel blank op view cut length) (config.geometry cut.count) store
      places).store.output := by
  rw [Grid.run_store]
  refine kept_after hwrites (fun request hr => ?_) hsize
  obtain ⟨block, hblock, hmem, _⟩ : ∃ block < cut.count, request ∈ plan.requests block ∧ _ :=
    Plan.exists_crew_of_mem_requests hcalls hr
  exact ⟨block, hblock, hmem⟩

variable (hover : (Grid.run scheduling (kernel blank op view cut length) (config.geometry cut.count) store
  places).isOver = true)

include hover

/-- **If all blocks have results, these are there at the end.** -/
theorem whole_run (hall : ∀ block < cut.count, ∃ total, result block = some total) :
    (Grid.run scheduling (kernel blank op view cut length) (config.geometry cut.count) store places).Answers
      (.ok ()) ∧ ∀ block < cut.count, (Grid.run scheduling (kernel blank op view cut length)
        (config.geometry cut.count) store places).store.output[block]? = result block := by
  have hends : ∀ block < cut.count, Block.EndWell config.width (plan.stops block) :=
    fun block hblock => (hstops block hblock).well (hall block hblock)
  have hfollows := Grid.follows_run plan hcalls scheduling places
  have hperm := (hfollows.of_isOver hends hover).2.2
  refine ⟨.ok (hfollows.fault?_eq_none hends), ?_⟩
  rw [Grid.run_store]
  refine whole_after hwrites (fun request hr => ?_) (fun block hblock request hr => ?_) hall hsize
  · obtain ⟨other, hother, hmem⟩ := List.mem_flatMap.mp (hperm.mem_iff.mp hr)
    exact ⟨other, List.mem_range.mp hother, hmem⟩
  · exact hperm.mem_iff.mpr (List.mem_flatMap.mpr ⟨block, List.mem_range.mpr hblock, hr⟩)

/-- **A launch with a block that has no result reports one of them.** -/
theorem contained_run (hspeaks : ∀ panic, told panic → panic.isRelease = false)
    (hnone : ∃ block < cut.count, result block = none) {answer : Except Failure Unit}
    (hanswer : (Grid.run scheduling (kernel blank op view cut length) (config.geometry cut.count) store
      places).Answers answer) :
    ∃ block, Contained told scheduling cut.count result store.output answer (Grid.run scheduling
      (kernel blank op view cut length) (config.geometry cut.count) store places).store.output block := by
  have hbreaks := exists_breaks hstops hnone
  obtain ⟨block, panic, rfl, hreport⟩ :=
    (breakable_of_stopsUnless hstops hspeaks).breaks_of_isOver hcalls hbreaks hover hanswer
  rw [Grid.run_store]
  exact ⟨block, contained_of_breaks hstops hwrites hreport hsize⟩

end Runs

section InOrder

variable (hvalid : config.validate = .ok ()) (hcount : 0 < cut.count) {order : Nat → List Nat}
  (horder : (order cut.count).Perm (List.range cut.count))

include hcalls hsize hvalid hcount horder

/-- **So it is in the end of a launch whose blocks run one after the other**, -/
theorem kept_launchInOrder : Kept cut.count result store.output
    (launchInOrder order config (kernel blank op view cut length) cut.count config.width store).2.output := by
  obtain ⟨⟨requests, hrequests, houtput⟩, _⟩ :=
    plan.launchInOrder_leaves hvalid hcount horder hcalls (ends_of_stopsUnless hstops)
  have hlaunched : cut.count ≤ (store.launched config cut.count).output.size := hsize
  rw [houtput]
  exact kept_after hwrites hrequests hlaunched

/-- if all blocks have results, -/
theorem whole_launchInOrder (hall : ∀ block < cut.count, ∃ total, result block = some total) :
    ∃ after, launchInOrder order config (kernel blank op view cut length) cut.count config.width store =
      (.ok (), after) ∧ ∀ block < cut.count, after.output[block]? = result block := by
  have hlaunched : cut.count ≤ (store.launched config cut.count).output.size := hsize
  have hmem : ∀ block, block ∈ order cut.count ↔ block < cut.count :=
    fun block => horder.mem_iff.trans List.mem_range
  refine ⟨_, plan.launchInOrder_eq hvalid hcount horder hcalls
    fun block hblock => (hstops block hblock).well (hall block hblock),
    whole_after hwrites (fun request hr => ?_) (fun block hblock request hr => ?_) hall hlaunched⟩
  · obtain ⟨other, hother, hr⟩ := List.mem_flatMap.mp hr
    exact ⟨other, (hmem other).mp hother, hr⟩
  · exact List.mem_flatMap.mpr ⟨block, (hmem block).mpr hblock, hr⟩

/-- and if not. -/
theorem contained_launchInOrder (hspeaks : ∀ panic, told panic → panic.isRelease = false)
    (hadmits : config.scheduling = .parallel ∨ config.scheduling.order cut.count = order cut.count)
    (hnone : ∃ block < cut.count, result block = none) :
    ∃ block, Contained told config.scheduling cut.count result store.output
      (launchInOrder order config (kernel blank op view cut length) cut.count config.width store).1
      (launchInOrder order config (kernel blank op view cut length) cut.count config.width store).2.output
      block := by
  have hlaunched : cut.count ≤ (store.launched config cut.count).output.size := hsize
  obtain ⟨block, panic, after, requests, hlaunch, hreport, houtput⟩ :=
    Plan.launchInOrder_breaks (breakable_of_stopsUnless hstops hspeaks) hvalid hcount horder hadmits hcalls
      (exists_breaks hstops hnone)
  rw [hlaunch]
  simp only [houtput]
  exact ⟨block, contained_of_breaks hstops hwrites hreport hlaunched⟩

end InOrder

end Launches

/-! ## Views and operators that panic -/

/-- A panic of an item of the view, or of the operator. -/
def Told (view : View σ) (op : σ → σ → Except Panic σ) (panic : Panic) : Prop :=
  (∃ index < view.length, view.item index 0 = .error panic) ∨ ∃ left right, op left right = .error panic

/-- Items and combinations that panic are refused, and all else is answered as if none did. -/
theorem refuses_patched_unchecked {view : View σ}
    (hpure : ∀ index earlier later, view.item index earlier = view.item index later) (filler : σ)
    (op : σ → σ → Except Panic σ) :
    (⟨view.item, op, Element.cloned 1⟩ : Callbacks σ σ).Refuses
      ⟨(view.patched filler).item, HostScan.total (unchecked op), Element.cloned 1⟩
      fun request => (refusal view request).or (combineRefusal op request) :=
  (refuses_patched hpure filler op).trans (refuses_unchecked (view.patched filler) op)

/-- Only panics of items and of the operator are told. -/
theorem told_of_refusal {view : View σ} {op : σ → σ → Except Panic σ} {request : Request σ σ} {panic : Panic}
    (hinside : ∀ index, request.item? = some index → index < view.length)
    (h : (refusal view request).or (combineRefusal op request) = some panic) : Told view op panic := by
  cases request with
  | fetch index =>
    have hpanic : Panic.of? (view.item index 0) = some panic := Option.or_none.symm.trans h
    exact .inl ⟨index, hinside index rfl, Panic.of?_eq_some.mp hpanic⟩
  | combine left right => exact .inr ⟨left, right, Panic.of?_eq_some.mp h⟩
  | _ => cases h

section Whole

variable {config : LaunchConfig} {op : σ → σ → Except Panic σ} {view : View σ} {cut : Decomposition}
  (blank : σ) (hvalid : config.validate = .ok ()) (hlength : view.length = cut.total)
  (hpure : ∀ index earlier later, view.item index earlier = view.item index later)

include hvalid hlength hpure

/-- **The blocks of a reduction end well and write their results**, and break off at a panic if they have none. -/
theorem exists_plan_blockResult (hcut : cut.WithinWord) {length : Nat} (hsize : cut.count ≤ length)
    (calls : Array Nat) :
    ∃ plan : Plan (kernel blank op view cut length) (config.geometry cut.count) calls, ∀ block < cut.count,
      StopsUnless (Told view op) config.width
        (∃ total, blockResult view op config.width (cut.span block) = some total) (plan.stops block) ∧
      WritesResult block (blockResult view op config.width (cut.span block)) (plan.requests block) := by
  obtain ⟨hwidth, _⟩ := LaunchConfig.width_of_validate hvalid
  let items : Nat → σ := fun index => view.itemOr blank index 0
  have hiff : ∀ block total, blockResult view op config.width (cut.span block) = some total ↔
      Gives (⟨view.item, op, Element.cloned 1⟩ : Callbacks σ σ) items (cut.start block) (cut.start (block + 1))
        calls ∧
      Folds ⟨view.item, op, Element.cloned 1⟩ items none (chunks (cut.span block) config.width) (some total) :=
    fun block total => blockResult_eq_some_iff blank hpure hwidth (cut.start_mono (Nat.le_succ block)) calls
  have hsound : ∀ block, Carries ⟨view.item, op, Element.cloned 1⟩ items calls config.width (cut.span block) ↔
      ∃ total, blockResult view op config.width (cut.span block) = some total := by
    refine fun block => ⟨?_, ?_⟩
    · rintro ⟨hgives, total, hfolds⟩
      exact ⟨total, (hiff block total).mpr ⟨hgives, hfolds⟩⟩
    · rintro ⟨total, hresult⟩
      obtain ⟨hgives, hfolds⟩ := (hiff block total).mp hresult
      exact ⟨hgives, total, hfolds⟩
  -- what the blocks would do without panics
  let values : Array σ := Array.ofFn fun index : Fin cut.total => items index
  have hvalues : values.size = cut.total := Array.size_ofFn
  have hitems : ∀ index < values.size, values[index]? = some (items index) := by
    intro index hindex
    rw [hvalues] at hindex
    rw [Array.getElem?_ofFn, dif_pos hindex]
  obtain ⟨totals, htotals⟩ := exists_totals (unchecked op) (view.patched blank) hitems hvalues hwidth
  have hlenient : ∀ block < cut.count, Carries
      ⟨(view.patched blank).item, HostScan.total (unchecked op), Element.cloned 1⟩ items calls config.width
        (cut.span block) := by
    refine fun block hblock => ⟨fun index _ _ => ?_, totals block, (htotals block hblock).1⟩
    show Except.ok (view.itemOr blank index (calls[index]?.getD 0)) = .ok (view.itemOr blank index 0)
    rw [View.itemOr, View.itemOr, hpure index _ 0]
  obtain ⟨plan, hplan⟩ := exists_plan_writesResult blank hvalid hcut hsize
    (refuses_patched_unchecked hpure blank op) (fun _ _ => rfl)
    (fun request panic hinside => told_of_refusal (hlength ▸ hinside)) hlenient
    (fun block _ total => (hiff block total).mp) fun block _ hnone hcarries => by
      obtain ⟨total, hresult⟩ := (hsound block).mp hcarries
      rw [hnone] at hresult
      cases hresult
  refine ⟨plan, fun block hblock => ?_⟩
  rw [← hsound]
  exact hplan block hblock

end Whole

/-- What a reduction answers and leaves whose view and operator may panic, in any order of its blocks and whatever
turns its lanes take. -/
structure Confines (config : LaunchConfig) (blank : σ) (op : σ → σ → Except Panic σ) (view : View σ)
    (cut : Decomposition) (before : Store σ) (result : Nat → Option σ)
    (run : Scheduling → List (Nat × Nat) → Grid σ σ) : Prop where
  /-- A slot never holds anything but the result of its block or what it held before, whatever has panicked. -/
  kept : (∀ order : Nat → List Nat, (order cut.count).Perm (List.range cut.count) →
      Kept cut.count result before.output (reduceInOrder order config blank op view cut before).2.output) ∧
    ∀ scheduling places, Kept cut.count result before.output (run scheduling places).store.output
  /-- If all blocks have results, these are there at the end. -/
  whole : (∀ block < cut.count, ∃ total, result block = some total) →
    (∀ order : Nat → List Nat, (order cut.count).Perm (List.range cut.count) →
      (reduceInOrder order config blank op view cut before).1 = .ok () ∧ ∀ block < cut.count,
        (reduceInOrder order config blank op view cut before).2.output[block]? = result block) ∧
    ∀ scheduling places, (run scheduling places).isOver = true → (run scheduling places).Answers (.ok ()) ∧
      ∀ block < cut.count, (run scheduling places).store.output[block]? = result block
  /-- If not, a block without a result is reported, unless release signals are raised. -/
  reported : (∀ panic, Told view op panic → panic.isRelease = false) →
    (∃ block < cut.count, result block = none) →
    (∀ order : Nat → List Nat, (order cut.count).Perm (List.range cut.count) →
      (config.scheduling = .parallel ∨ config.scheduling.order cut.count = order cut.count) →
      ∃ block, Contained (Told view op) config.scheduling cut.count result before.output
        (reduceInOrder order config blank op view cut before).1
        (reduceInOrder order config blank op view cut before).2.output block) ∧
    ∀ scheduling places, (∃ more, (run scheduling (places ++ more)).isOver = true) ∧
      ((run scheduling places).isOver = true → ∀ answer, (run scheduling places).Answers answer →
        ∃ block, Contained (Told view op) scheduling cut.count result before.output answer
          (run scheduling places).store.output block)

/-- **Faults stay with their blocks.**  Whatever the view and the operator panic on, a slot holds what it held before
or the result of its block, as it is without panics elsewhere; a block that comes upon a panic leaves its slot as it
was.  Unless the panics are release signals, the reduction reports one of these blocks, and if blocks begin one at a
time this is the first of them: the blocks before it have written their results, and those behind it nothing. -/
theorem faults_stay {config : LaunchConfig} (blank : σ) (op : σ → σ → Except Panic σ) {view : View σ}
    {cut : Decomposition} {before : Store σ} (hvalid : config.validate = .ok ())
    (hlength : view.length = cut.total) (hlimit : view.length < Word.allocationLimit)
    (houtput : cut.count ≤ before.output.size)
    (hpure : ∀ index earlier later, view.item index earlier = view.item index later) :
    Confines config blank op view cut before (fun block => blockResult view op config.width (cut.span block))
      fun scheduling => Grid.run scheduling (kernel blank op view cut before.output.size)
        (config.geometry cut.count) ((logged cut before).launched config cut.count) := by
  have hlimits : Word.allocationLimit < Word.limit := by decide
  obtain ⟨plan, hplan⟩ := exists_plan_blockResult blank hvalid hlength hpure (.of_total (by omega)) houtput
    before.journal.calls
  have hstops := fun block hblock => (hplan block hblock).1
  have hwrites := fun block hblock => (hplan block hblock).2
  have hcalls : (logged cut before).journal.calls = before.journal.calls := rfl
  have hlaunched : ((logged cut before).launched config cut.count).journal.calls = before.journal.calls := rfl
  have hsize : cut.count ≤ ((logged cut before).launched config cut.count).output.size := houtput
  have hlaunch : ∀ order, 0 < cut.count → reduceInOrder order config blank op view cut before =
      launchInOrder order config (kernel blank op view cut before.output.size) cut.count config.width
        (logged cut before) := fun order hcount => reduceInOrder_eq order config blank op hlength hcount houtput
  refine ⟨⟨fun order horder => ?_, kept_run hwrites hlaunched hsize⟩, fun hall => ⟨fun order horder => ?_,
    fun scheduling places hover => whole_run hstops hwrites hlaunched hsize hover hall⟩,
    fun hspeaks hnone => ⟨fun order horder hadmits => ?_, fun scheduling places => ⟨?_,
      fun hover answer => contained_run hstops hwrites hlaunched hsize hover hspeaks hnone⟩⟩⟩
  · rcases Nat.eq_zero_or_pos cut.count with hzero | hcount
    · rw [reduceInOrder_of_zero order config blank op before hlength hzero]
      exact ⟨fun block hblock => .inl rfl, fun _ _ => rfl⟩
    · rw [hlaunch order hcount]
      exact kept_launchInOrder hstops hwrites hcalls houtput hvalid hcount horder
  · rcases Nat.eq_zero_or_pos cut.count with hzero | hcount
    · rw [reduceInOrder_of_zero order config blank op before hlength hzero]
      exact ⟨rfl, fun block hblock => by omega⟩
    · obtain ⟨after, hanswer, houtput⟩ :=
        whole_launchInOrder hstops hwrites hcalls houtput hvalid hcount horder hall
      rw [hlaunch order hcount, hanswer]
      exact ⟨rfl, houtput⟩
  · have hcount : 0 < cut.count := Nat.zero_lt_of_lt hnone.choose_spec.1
    rw [hlaunch order hcount]
    exact contained_launchInOrder hstops hwrites hcalls houtput hvalid hcount horder hspeaks hadmits hnone
  · exact (breakable_of_stopsUnless hstops hspeaks).exists_over hlaunched scheduling places

/-- Six numbers, the fourth of which cannot be had. -/
def gappedRow (panic : Panic) : View Int := ⟨6, fun index _ => if index = 3 then .error panic else .ok index⟩

/-- Three blocks of two lanes add up two numbers each.  The panic in the second one is reported, unless it is the
release signal: then the reduction answers without an error, and the second slot is as it was. -/
theorem faults_stay_gapped :
    let call := fun panic => reduce (laneConfig 2) 0 (HostScan.total (· + ·)) (gappedRow panic) (.even 6 3)
      ⟨#[7, 7, 7], .start 6⟩
    (call (.raised (.literal "gap"))).1 = .error (.error (.kernelFault 1 "gap")) ∧
    (call (.raised (.literal "gap"))).2.output[0]? = some 1 ∧
    (call (.raised (.literal "gap"))).2.output[2]? = some 7 ∧
    (call (.raised .barrierPoisoned)).1 = .ok () ∧ (call (.raised .barrierPoisoned)).2.output[1]? = some 7 := by
  intro call
  let results : Panic → Nat → Option Int := fun panic block =>
    blockResult (gappedRow panic) (HostScan.total (· + ·)) 2 ((Decomposition.even 6 3).span block)
  have hlimit : 6 < Word.allocationLimit := by decide
  have hstay := fun panic => @faults_stay Int (laneConfig 2) 0 (HostScan.total (· + ·)) (gappedRow panic) (.even 6 3)
    ⟨#[7, 7, 7], .start 6⟩ rfl rfl hlimit (Nat.le_refl 3) fun _ _ _ => rfl
  have hnone : ∀ panic, results panic 1 = none := fun _ => rfl
  have htold : ∀ gap panic, Told (gappedRow gap) (HostScan.total (· + ·)) panic → panic = gap := by
    rintro gap panic (⟨index, _, hitem⟩ | ⟨left, right, hsum⟩)
    · simp only [gappedRow] at hitem
      split at hitem <;> cases hitem
      rfl
    · cases hsum
  obtain ⟨block, hcontained⟩ := ((hstay (.raised (.literal "gap"))).reported
    (fun panic hpanic => htold _ panic hpanic ▸ rfl) ⟨1, by decide, hnone _⟩).1 _
      (Scheduling.sequential.perm_order 3) (.inr rfl)
  have hfirst : results (.raised (.literal "gap")) 0 = some 1 := by decide
  obtain rfl : block = 1 := by
    have hlast : results (.raised (.literal "gap")) 2 = some 9 := by decide
    have hlt : block < 3 := hcontained.lt
    have hpanics : results (.raised (.literal "gap")) block = none := hcontained.panics
    match block with
    | 0 => cases hfirst.symm.trans hpanics
    | 1 => rfl
    | 2 => cases hlast.symm.trans hpanics
  obtain ⟨panic, hpanic, hanswer⟩ := hcontained.reports
  obtain rfl := htold _ panic hpanic
  refine ⟨hanswer, ?_, hcontained.later 2 (by decide) (Nat.lt_succ_self 1), by decide +kernel, ?_⟩
  · obtain ⟨total, htotal, hslot⟩ := hcontained.earlier 0 (by decide) Nat.one_pos
    obtain rfl := Option.some.inj (hfirst.symm.trans htotal)
    exact hslot
  · obtain hslot | ⟨total, htotal, _⟩ := ((hstay (.raised .barrierPoisoned)).kept.1 _
      (Scheduling.sequential.perm_order 3)).slots 1 (by decide)
    · exact hslot
    · cases (hnone _).symm.trans htotal

end Reduction

end BlockMachine
