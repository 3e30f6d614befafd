import BlockMachine.Proofs.Launch.Stricter
import BlockMachine.Proofs.Reduction.Launch

/-!
# Reductions of views that panic

* `View.patched` — a view with a fixed value in the place of each item that panics.
* `Reduction.reduceInOrder_error` — a reduction with checked sums fails if one of its items panics.
-/

set_option autoImplicit false

namespace BlockMachine

open BlockScan

/-- An item, or a fixed value if that panics. -/
def View.itemOr {β : Type} (view : View β) (blank : β) (index earlier : Nat) : β :=
  (view.item index earlier).toOption.getD blank

/-- A view with a fixed value in the place of each item that panics. -/
def View.patched {β : Type} (view : View β) (blank : β) : View β where
  length := view.length
  item index earlier := .ok (view.itemOr blank index earlier)

namespace Reduction

section

variable {σ : Type} {view : View σ}

/-- The same code without panics of the view. -/
theorem stricter_patched (hpure : ∀ index earlier later, view.item index earlier = view.item index later)
    (filler : σ) (op : σ → σ → Except Panic σ) :
    (⟨view.item, op, Element.cloned 1⟩ : Callbacks σ σ).Stricter
      ⟨(view.patched filler).item, op, Element.cloned 1⟩ := by
  refine ⟨fun request sight => ?_, fun index hcounts => ?_⟩
  · cases request with
    | fetch index =>
      show view.item index (sight.calls[index]?.getD 0) =
        .ok (view.itemOr filler index (sight.calls[index]?.getD 0)) ∨
          ∃ panic, view.item index (sight.calls[index]?.getD 0) = .error panic
      unfold View.itemOr
      cases view.item index (sight.calls[index]?.getD 0) with
      | ok value => exact .inl rfl
      | error panic => exact .inr ⟨panic, rfl⟩
    | _ => exact .inl rfl
  · obtain ⟨earlier, later, hne⟩ := hcounts
    exact absurd (hpure index earlier later) hne

/-- Only items that panic are refused. -/
theorem item_of_refused {filler : σ} {op : σ → σ → Except Panic σ} {request : Request σ σ} {panic : Panic}
    (h : request.Refused (⟨view.item, op, Element.cloned 1⟩ : Callbacks σ σ)
      ⟨(view.patched filler).item, op, Element.cloned 1⟩ panic) :
    ∃ index earlier, request.item? = some index ∧ view.item index earlier = .error panic := by
  obtain ⟨sight, hpanic, hne⟩ := h
  cases request with
  | fetch index => exact ⟨index, sight.calls[index]?.getD 0, rfl, hpanic⟩
  | _ => exact absurd hpanic hne

end

/-- **A reduction with checked sums fails if one of its items panics**, in any order of the blocks, unless
the panic is a release signal. -/
theorem reduceInOrder_error {order : Nat → List Nat} {config : LaunchConfig} {view : View Nat}
    {cut : Decomposition} (blank : Nat) (store : Store Nat) (hvalid : config.validate = .ok ())
    (hlength : view.length = cut.total) (htotal : cut.total + 1 < Word.limit) (hcount : 0 < cut.count)
    (hsize : cut.count ≤ store.output.size)
    (horder : (order cut.count).Perm (List.range cut.count))
    (hpure : ∀ index earlier later, view.item index earlier = view.item index later)
    (hlimit : total (view.itemOr 0 · 0) cut.total < Word.limit)
    (hrelease : ∀ index < cut.total, ∀ panic, view.item index 0 = .error panic →
      panic.isRelease = false)
    (hpanics : ∃ index < cut.total, ∃ panic, view.item index 0 = .error panic) :
    ∃ failure after, reduceInOrder order config blank Word.add view cut store =
      (.error failure, after) := by
  obtain ⟨hwidth, _⟩ := LaunchConfig.width_of_validate hvalid
  -- what the blocks would do if no item panicked
  have hgives : ∀ index < cut.total, (view.patched 0).item index (store.journal.calls[index]?.getD 0) =
      .ok (view.itemOr 0 index 0) :=
    fun index _ => by simp only [View.patched, View.itemOr, hpure index _ 0]
  obtain ⟨usual, hdoes⟩ := exists_plan blank hvalid htotal hsize hgives
    fun block hblock => folds_intervals ⟨(view.patched 0).item, Word.add, Element.cloned 1⟩ rfl hwidth
      hlimit hblock
  obtain ⟨plan, hcurtailed⟩ := usual.exists_curtailed (stricter_patched hpure 0 Word.add)
    fun block hblock lane _ => ⟨(), (hdoes block hblock).ends lane⟩
  have hfaults : ∀ block < cut.count, Block.Breaks config.width (plan.stops block) →
      Block.Faults config.width (plan.stops block) := by
    intro block hblock
    refine (hcurtailed block hblock).faults fun request hr panic hrefused => ?_
    obtain ⟨index, earlier, hitem, hpanic⟩ := item_of_refused hrefused
    have hstop : cut.start (block + 1) ≤ cut.total := cut.start_le_total hblock
    have hin := (hdoes block hblock).asks.mem_interval hr hitem
    exact hrelease index (by omega) panic (by rw [hpure index 0 earlier, hpanic])
  rw [reduceInOrder_eq order config blank Word.add hlength hcount hsize]
  have hcalls : (logged cut store).journal.calls = store.journal.calls := rfl
  refine plan.launchInOrder_error hvalid horder hcalls
    (fun block hblock => (hcurtailed block hblock).ends.imp id (hfaults block hblock)) ?_
  -- the block that asks for the item that panics
  obtain ⟨index, hindex, panic, hpanic⟩ := hpanics
  obtain ⟨block, hblock, hle, hlt⟩ := cut.exists_block hcount hindex
  refine ⟨block, hblock, hfaults block hblock ((hcurtailed block hblock).breaks ?_)⟩
  obtain ⟨request, hr, hitem⟩ := (hdoes block hblock).asks.exists_mem hle hlt
  refine ⟨request, hr, fun sight => ⟨panic, ?_⟩⟩
  cases request with
  | fetch other =>
    cases hitem
    show view.item index (sight.calls[index]?.getD 0) = .error panic
    rw [hpure index _ 0, hpanic]
  | _ => cases hitem

end Reduction

end BlockMachine
