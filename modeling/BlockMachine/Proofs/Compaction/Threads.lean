import BlockMachine.Proofs.Compaction.Independent
import BlockMachine.Proofs.Launch.Threads

/-!
# Reductions and compactions whose lanes are threads

* `Reduction.threads_reduce` — the threads of a reduction that does not panic leave what the reduction leaves.
* `Compaction.Arrives.threads_compact` — so do the threads of a compaction's writing launch.
-/

set_option autoImplicit false

namespace BlockMachine

/-- **The threads of a reduction** that does not panic leave what it leaves, whatever turns they take. -/
theorem Reduction.threads_reduce {σ : Type} {config : LaunchConfig} (blank : σ) {op : σ → σ → Except Panic σ}
    {view : View σ} {cut : Decomposition} {items totals : Nat → σ} {before : Store σ}
    (hvalid : config.validate = .ok ()) (hlength : view.length = cut.total) (hcut : cut.WithinWord)
    (hcount : 0 < cut.count) (hsize : cut.count ≤ before.output.size)
    (hgives : ∀ index < cut.total,
      view.item index (before.journal.calls[index]?.getD 0) = .ok (items index))
    (hfolds : ∀ block < cut.count, Folds ⟨view.item, op, Element.cloned 1⟩ items none
      (chunks ⟨cut.start block, cut.start (block + 1)⟩ config.width) (some (totals block)))
    {spawner : Spawner} (hwilling : ∀ block lane, spawner.refuses block lane = none) :
    ∃ left course, reduce config blank op view cut before = (.ok (), left) ∧
      ∀ scheduling, ThreadedGrid.Agrees scheduling spawner (kernel blank op view cut before.output.size)
        (config.geometry cut.count)
        ((logged cut before).launched { config with scheduling := scheduling } cut.count) left.output course := by
  obtain ⟨hwidth, hmax⟩ := LaunchConfig.width_of_validate hvalid
  have hindependent : Grid.Independent (kernel blank op view cut before.output.size) (config.geometry cut.count)
      (logged cut before) := independent blank hvalid hcut hsize hgives hfolds
  obtain ⟨left, course, hlaunch, hagrees⟩ := threads_agree hvalid hwidth hmax nofun hindependent hwilling
    (config.scheduling.perm_order cut.count) (.inr rfl)
  exact ⟨left, course, (reduceInOrder_eq _ config blank op hlength hcount hsize).trans hlaunch, hagrees⟩

/-- **The threads of a compaction's writing launch** leave what the compaction leaves, whatever turns they take, if its
flags do not change and no clone panics. -/
theorem Compaction.Arrives.threads_compact {α : Type} {orders : Orders} {config : LaunchConfig} {element : Element α}
    {input : Placed α} {flags : View Nat} {items : Nat → Nat} {address : Nat} {before store : Store α} {task : Task α}
    (h : Arrives orders config element input flags address before task store)
    (hlength : input.length < Word.allocationLimit) (hbytes : before.output.size * element.size < Word.limit)
    (hzero : element.size = 0 → ∀ a b : α, a = b) (hclone : ∀ value, ∃ copy, element.clone value = .ok copy)
    (hcounting : ∀ blocks, (orders.counting blocks).Perm (List.range blocks))
    (hwriting : ∀ blocks, (orders.writing blocks).Perm (List.range blocks))
    (hadmits : config.scheduling = .parallel ∨
      config.scheduling.order task.cut.count = orders.writing task.cut.count)
    (hitems : ∀ index, items index ≤ 1)
    (hgives : ∀ index < input.length, ∀ earlier, flags.item index earlier = .ok (items index))
    {spawner : Spawner} (hwilling : ∀ block lane, spawner.refuses block lane = none) :
    ∃ left course,
      compactFlags orders config element input flags address before = (.ok (task.offsets.back?.getD 0), left) ∧
      ∀ scheduling, ThreadedGrid.Agrees scheduling spawner (kernel flags task) (config.geometry task.cut.count)
        (store.launched { config with scheduling := scheduling } task.cut.count) left.output course := by
  obtain ⟨hwidth, hmax⟩ := LaunchConfig.width_of_validate h.valid
  obtain ⟨prepared, _⟩ := h.prepared hlength hbytes hclone hcounting hitems
    fun index hindex => hgives index hindex _
  have hinput : task.input = input := by rw [h.same]
  have helement : task.element = element := by rw [h.same]
  have hindependent : Grid.Independent (kernel flags task) (config.geometry task.cut.count) store :=
    prepared.independent fun index hindex => hgives index (by rwa [prepared.covers, hinput] at hindex) _
  obtain ⟨left, course, hlaunch, hagrees⟩ := threads_agree h.valid hwidth hmax
    (fun hsize => hzero (helement ▸ hsize)) hindependent hwilling (hwriting task.cut.count) hadmits
  exact ⟨reported task left, course, by rw [h.compactFlags_eq, hlaunch], hagrees⟩

end BlockMachine
