import BlockMachine.Proofs.Compaction.Launch
import BlockMachine.Proofs.Launch.Independent
import BlockMachine.Proofs.Reduction.Launch

/-!
# The launches of a compaction are independent

* `Reduction.independent` — a reduction that does not panic is an independent launch.
* `Compaction.Prepared.independent` — so is the writing launch of a compaction that finds the flags which it
  counted.
-/

set_option autoImplicit false

namespace BlockMachine

open Request

/-- **A reduction that does not panic is an independent launch.** -/
theorem Reduction.independent {σ : Type} {config : LaunchConfig} (blank : σ) {op : σ → σ → Except Panic σ}
    {view : View σ} {cut : Decomposition} {items totals : Nat → σ} {length : Nat} {store : Store σ}
    (hvalid : config.validate = .ok ()) (hcut : cut.WithinWord) (hsize : cut.count ≤ length)
    (hgives : ∀ index < cut.total,
      view.item index (store.journal.calls[index]?.getD 0) = .ok (items index))
    (hfolds : ∀ block < cut.count, Folds ⟨view.item, op, Element.cloned 1⟩ items none
      (chunks ⟨cut.start block, cut.start (block + 1)⟩ config.width) (some (totals block))) :
    Grid.Independent (kernel blank op view cut length) (config.geometry cut.count) store := by
  obtain ⟨plan, hdoes⟩ := exists_plan_of_withinWord blank hvalid hcut hsize hgives hfolds
  refine Grid.independent_of_plan plan (fun block hblock lane _ => ⟨(), (hdoes block hblock).ends lane⟩)
    (Grid.writesApart_of_once plan fun slot place hplace => ?_)
  refine ((writes_of_does hdoes).length_pieces hplace).trans_le ?_
  split <;> omega

/-- **The writing launch of a compaction is independent**, if the flags are as they were counted. -/
theorem Compaction.Prepared.independent {α : Type} {config : LaunchConfig} {task : Task α}
    {counted : Nat → Nat} (prepared : Prepared config task counted) {flags : View Nat} {store : Store α}
    (hgives : ∀ index < task.cut.total,
      flags.item index (store.journal.calls[index]?.getD 0) = .ok (counted index)) :
    Grid.Independent (kernel flags task) (config.geometry task.cut.count) store := by
  obtain ⟨plan, hmoves, _⟩ := prepared.launchInOrder_eq prepared.flags hgives prepared.fits
  refine Grid.independent_of_plan plan hmoves.ends (Grid.writesApart_of_once plan fun slot place hplace => ?_)
  refine ((prepared.writes hmoves).length_pieces hplace).trans_le ?_
  split <;> omega

end BlockMachine
