import BlockMachine.Proofs.Launch.Alarms
import BlockMachine.Proofs.Reduction.Panics

/-!
# Reductions that come upon items that panic

* `View.alarm` — the panic of an item.
* `Reduction.exists_plan_halts` — with checked sums a block takes its chunks up to the first with an item that
  panics, and its lanes stop with the panics of that chunk.
* `Reduction.CountRuns`, `Reduction.count_runs` — what such a reduction reports, whatever turns its lanes take.
-/

set_option autoImplicit false

namespace BlockMachine

open BlockScan

/-- The panic of an item, if it has one. -/
def View.alarm {β : Type} (view : View β) (index : Nat) : Option Panic := Panic.of? (view.item index 0)

namespace Reduction

variable {σ : Type}

/-- The panic of a request for an item, if it has one. -/
def refusal (view : View σ) : Request σ σ → Option Panic
  | .fetch index => view.alarm index
  | _ => none

/-- Requests for items that panic are refused, and all others are answered as if no item panicked. -/
theorem refuses_patched {view : View σ}
    (hpure : ∀ index earlier later, view.item index earlier = view.item index later) (filler : σ)
    (op : σ → σ → Except Panic σ) :
    (⟨view.item, op, Element.cloned 1⟩ : Callbacks σ σ).Refuses
      ⟨(view.patched filler).item, op, Element.cloned 1⟩ (refusal view) := by
  refine ⟨fun request sight hnone => ?_, fun request sight panic hpanic => ?_,
    (stricter_patched hpure filler op).counts⟩
  · cases request with
    | fetch index =>
      show view.item index (sight.calls[index]?.getD 0) =
        .ok (view.itemOr filler index (sight.calls[index]?.getD 0))
      rw [View.itemOr, hpure index (sight.calls[index]?.getD 0) 0]
      cases hitem : view.item index 0 with
      | ok value => rfl
      | error panic =>
        rw [refusal, View.alarm, hitem] at hnone
        cases hnone
    | _ => rfl
  · cases request with
    | fetch index =>
      show view.item index (sight.calls[index]?.getD 0) = .error panic
      rw [hpure index _ 0]
      exact Panic.of?_eq_some.mp hpanic
    | _ => cases hpanic

variable {view : View Nat} {cut : Decomposition} {length : Nat}

/-- The lanes that lay out a chunk stop at the panics of its items. -/
theorem rings_layStage (items : Nat → Nat) (width : Nat) (chunk : Nat × Nat) :
    Block.Rings (refusal view) width view.alarm chunk (layStage items chunk.1 chunk.2 none) := by
  intro lane _
  unfold layStage
  by_cases hlane : lane < chunk.2
  · rw [if_pos hlane, if_pos hlane]
    cases halarm : view.alarm (chunk.1 + lane) <;> simp [refusal, halarm]
  · rw [if_neg hlane, if_neg hlane]
    rfl

/-- **The blocks of a reduction with checked sums halt at the items that panic.** -/
theorem exists_plan_halts {config : LaunchConfig} (calls : Array Nat) (blank : Nat)
    (hvalid : config.validate = .ok ()) (hcut : cut.WithinWord) (hsize : cut.count ≤ length)
    (hpure : ∀ index earlier later, view.item index earlier = view.item index later)
    (hlimit : total (view.itemOr 0 · 0) cut.total < Word.limit) :
    ∃ plan : Plan (kernel blank Word.add view cut length) (config.geometry cut.count) calls,
      ∀ block < cut.count, Block.Halts cut config.width view.alarm block (plan.stops block) := by
  obtain ⟨hwidth, _⟩ := LaunchConfig.width_of_validate hvalid
  -- what the blocks would do if no item panicked
  have hgives : ∀ index < cut.total, (view.patched 0).item index (calls[index]?.getD 0) =
      .ok (view.itemOr 0 index 0) :=
    fun index _ => by simp only [View.patched, View.itemOr, hpure index _ 0]
  obtain ⟨usual, hdoes⟩ := exists_plan_laysOut blank hvalid hcut hsize hgives
    fun block hblock => folds_intervals ⟨(view.patched 0).item, Word.add, Element.cloned 1⟩ rfl hwidth
      hlimit hblock
  obtain ⟨plan, hbroken⟩ := usual.exists_brokenOff (refuses_patched hpure 0 Word.add)
    fun block hblock lane _ => ⟨(), (hdoes block hblock).1.ends lane⟩
  refine ⟨plan, fun block hblock => ((hbroken block hblock).reach hwidth (fun stage hidle => ?_)
    (fun chunk stage hstage => ?_) (hdoes block hblock).2).2⟩
  · intro lane _ request hr
    have hitem := hidle lane request hr
    cases request with
    | fetch index => cases hitem
    | _ => rfl
  · rw [hstage]
    exact rings_layStage _ _ _

/-- What the runs of a reduction report some of whose items panic, whatever turns its lanes take. -/
structure CountRuns (config : LaunchConfig) (view : View Nat) (cut : Decomposition)
    (alarm : Nat → Option Panic) (store : Store Nat) (places : List (Nat × Nat)) : Prop where
  /-- Every run can be brought to its end, -/
  ends : ∃ more, (Grid.run config.scheduling (kernel 0 Word.add view cut store.output.size)
    (config.geometry cut.count) store (places ++ more)).isOver = true
  /-- and then it reports one of the first panics. -/
  reports : (Grid.run config.scheduling (kernel 0 Word.add view cut store.output.size)
      (config.geometry cut.count) store places).isOver = true →
    ∀ answer, (Grid.run config.scheduling (kernel 0 Word.add view cut store.output.size)
      (config.geometry cut.count) store places).Answers answer →
    ∃ block panic, cut.Blames config.width config.scheduling alarm block panic ∧
      answer = .error (.error (.kernelFault block panic.report))

section Reports

variable {config : LaunchConfig} {store : Store Nat} (hvalid : config.validate = .ok ())
  (hcut : cut.WithinWord) (hcount : 0 < cut.count) (hsize : cut.count ≤ store.output.size)
  (hpure : ∀ index earlier later, view.item index earlier = view.item index later)
  (hlimit : total (view.itemOr 0 · 0) cut.total < Word.limit)
  (hspeaks : ∀ index < cut.total, ∀ panic, view.alarm index = some panic → panic.isRelease = false)
  (hpanics : ∃ index < cut.total, view.alarm index ≠ none)

include hvalid hcut hcount hsize hpure hlimit hspeaks hpanics

/-- **What a reduction with checked sums reports some of whose items panic**, whatever turns its lanes take. -/
theorem count_runs (places : List (Nat × Nat)) :
    CountRuns config view cut view.alarm store places := by
  obtain ⟨plan, hhalts⟩ := exists_plan_halts store.journal.calls 0 hvalid hcut hsize hpure hlimit
  have hbreakable := Plan.breakable_of_halts hhalts hspeaks
  refine ⟨hbreakable.exists_over rfl config.scheduling places, fun hover answer hanswer => ?_⟩
  obtain ⟨block, panic, rfl, hbreaks⟩ := hbreakable.breaks_of_isOver rfl
    (Plan.exists_breaks_of_halts hhalts hcount hpanics) hover hanswer
  exact ⟨block, panic, hbreaks.blames hhalts, rfl⟩

/-- **So does the reduction whose blocks run one after the other**, in an order that its scheduling admits. -/
theorem reduceInOrder_reports {order : Nat → List Nat} (hlength : view.length = cut.total)
    (horder : (order cut.count).Perm (List.range cut.count))
    (hadmits : config.scheduling = .parallel ∨ config.scheduling.order cut.count = order cut.count) :
    ∃ block panic after, cut.Blames config.width config.scheduling view.alarm block panic ∧
      reduceInOrder order config 0 Word.add view cut store =
        (.error (.error (.kernelFault block panic.report)), after) := by
  obtain ⟨plan, hhalts⟩ := exists_plan_halts store.journal.calls 0 hvalid hcut hsize hpure hlimit
  have hcalls : (logged cut store).journal.calls = store.journal.calls := rfl
  obtain ⟨block, panic, after, _, hlaunch, hbreaks, _⟩ := Plan.launchInOrder_breaks
    (Plan.breakable_of_halts hhalts hspeaks) hvalid hcount horder hadmits hcalls
    (Plan.exists_breaks_of_halts hhalts hcount hpanics)
  exact ⟨block, panic, after, hbreaks.blames hhalts,
    (reduceInOrder_eq order config 0 Word.add hlength hcount hsize).trans hlaunch⟩

end Reports

end Reduction

end BlockMachine
