import BlockMachine.Proofs.Compaction.Deliveries
import BlockMachine.Proofs.Compaction.PredicateFaults

/-!
# Clones that panic

A clone that panics while the blocks of a compaction write makes the compaction fail, and what has been written
stays.  It can be told exactly what that is.

* `Decomposition.Reaches` — the elements that a launch comes to which reports a block.
* `Compaction.Damaged` — what such a launch leaves in the output.
* `Compaction.WriteFault` — what a compaction answers and leaves if the clone of a selected element panics.
* `Compaction.clone_faults_reported` — it does so whatever turns its lanes take, as long as the default of the
  block limit is a word.
-/

set_option autoImplicit false

namespace BlockMachine

open Request BlockScan

variable {α S : Type}

/-- Whether a launch that reports a block comes to an element: the element lies in a block that runs before
this one, or no chunk of this block before the element's has an element of a kind. -/
inductive Decomposition.Reaches (cut : Decomposition) (width : Nat) (scheduling : Scheduling)
    (kind : Nat → Prop) (block index : Nat) : Prop
  | inside (comes : cut.ComesTo width kind block index)
  | before {other : Nat} (lt : other < cut.count) (before : scheduling.Before other block)
      (start_le : cut.start other ≤ index) (lt_stop : index < cut.start (other + 1))

namespace Compaction

/-- What is left of an output if the clone of an element that is kept has panicked in a block.  The slot of an
element that is kept is the number of those in front of it, `total items index`. -/
structure Damaged (element : Element α) (kept : List α) (items : Nat → Nat) (values : Array α)
    (cut : Decomposition) (width : Nat) (scheduling : Scheduling) (block : Nat) (before after : Array α) :
    Prop where
  /-- The slot of an element that is kept is as it was or has the clone of the element, -/
  torn : ∀ (slot : Nat) (value : α), kept[slot]? = some value →
    after[slot]? = before[slot]? ∨ ∃ copy, element.clone value = .ok copy ∧ after[slot]? = some copy
  /-- and all others are as they were, as are those whose clone panics. -/
  spared : ∀ slot : Nat, (∀ value, kept[slot]? = some value →
    ∃ panic, element.clone value = .error panic) → after[slot]? = before[slot]?
  /-- The elements that the launch comes to have been written, -/
  written : ∀ (index : Nat) (value copy : α), items index ≠ 0 → values[index]? = some value →
    element.clone value = .ok copy →
    cut.Reaches width scheduling (cloneAlarm element items values · ≠ none) block index →
    after[total items index]? = some copy
  /-- and no others if blocks begin one at a time. -/
  unwritten : scheduling ≠ .parallel → ∀ index : Nat, items index ≠ 0 →
    ¬ cut.Reaches width scheduling (cloneAlarm element items values · ≠ none) block index →
    after[total items index]? = before[total items index]?

section Writes

variable {task : Task α} {items : Nat → Nat} {config : LaunchConfig} {flags : View Nat} {calls : Array Nat}
  {plan : Plan (kernel flags task) (config.geometry task.cut.count) calls} {scheduling : Scheduling}
  {block : Nat} {panic : Panic} {requests : List (Request Nat α)} {before after : Store α}

/-- Values without bytes cannot be told apart. -/
theorem damaged_of_empty (hempty : task.element.size = 0) (hzero : task.element.size = 0 → ∀ a b : α, a = b)
    (hroom : total items task.input.length ≤ before.output.size)
    (hsize : after.output.size = before.output.size) (kept : List α) :
    Damaged task.element kept items task.input.values task.cut config.width scheduling block
      before.output after.output := by
  have hsame : after.output = before.output :=
    Element.eq_of_content hzero hsize fun _ place hplace => by omega
  rw [hsame]
  refine ⟨fun _ _ _ => .inl rfl, fun _ _ => rfl, fun index value copy hitem hvalue _ _ => ?_,
    fun _ _ _ _ => rfl⟩
  have hindex : index < task.input.length := (Array.getElem?_eq_some_iff.mp hvalue).1
  have hslot : total items index < before.output.size :=
    Nat.lt_of_lt_of_le (total_lt hitem hindex) hroom
  rw [Array.getElem?_eq_getElem hslot]
  exact congrArg some (hzero hempty _ _)

section Hands

variable (hhands : ∀ request ∈ requests, request.Silent ∨ ∃ index, Hands task items index request)

include hhands

theorem whole_of_hands : ∀ request ∈ requests, request.Whole := by
  intro request hr
  rcases hhands request hr with hsilent | ⟨index, hhands⟩
  · exact hsilent.whole
  · obtain ⟨_, _, _, _, rfl⟩ := hhands.written
    trivial

/-- Only the clone of its own element is written to a slot. -/
theorem exists_of_write {slot : Nat} {copy : α} (hr : .write slot copy ∈ requests) :
    ∃ index value, items index ≠ 0 ∧ total items index = slot ∧
      task.input.values[index]? = some value ∧ task.element.clone value = .ok copy := by
  obtain ⟨index, hhands⟩ := (hhands _ hr).resolve_left id
  obtain ⟨value, copy', hvalue, hcopy, hwrite⟩ := hhands.written
  cases hwrite
  exact ⟨index, value, hhands.selected, rfl, hvalue, hcopy⟩

/-- An element that is handed over has its clone in its slot. -/
theorem getElem?_after_of_hands (hroom : total items task.input.length ≤ before.output.size) {index : Nat}
    {value copy : α} (hitem : items index ≠ 0) (hvalue : task.input.values[index]? = some value)
    (hcopy : task.element.clone value = .ok copy) (hr : .write (total items index) copy ∈ requests) :
    (before.after task.element requests).output[total items index]? = some copy := by
  have hindex : index < task.input.length := (Array.getElem?_eq_some_iff.mp hvalue).1
  have hfits : total items index < before.output.size :=
    Nat.lt_of_lt_of_le (total_lt hitem hindex) hroom
  rw [Store.getElem?_after_of_written (whole_of_hands hhands) (fun other hother => ?_) hr,
    Array.getElem?_eq_getElem hfits, Option.map_some]
  obtain ⟨index', value', hitem', htotal, hvalue', hcopy'⟩ := exists_of_write hhands hother
  obtain rfl := eq_of_total_eq hitem' hitem htotal
  obtain rfl := Option.some.inj (hvalue'.symm.trans hvalue)
  exact Except.ok.inj (hcopy'.symm.trans hcopy)

/-- What is left in the slot of a selected element. -/
theorem kept_or_cloned (hitems : ∀ index, items index ≤ 1)
    (hroom : total items task.input.length ≤ before.output.size) {slot : Nat} {value : α}
    (hkept : (selected items task.input.values 0 task.input.values.size)[slot]? = some value) :
    (before.after task.element requests).output[slot]? = before.output[slot]? ∨
      ∃ copy, task.element.clone value = .ok copy ∧
        (before.after task.element requests).output[slot]? = some copy := by
  obtain ⟨index, _, hitem, rfl, hvalue⟩ := (getElem?_selected hitems (Nat.le_refl _)).mp hkept
  by_cases hmem : ∃ copy, .write (total items index) copy ∈ requests
  · obtain ⟨copy, hr⟩ := hmem
    obtain ⟨index', value', hitem', htotal, hvalue', hcopy⟩ := exists_of_write hhands hr
    obtain rfl := eq_of_total_eq hitem' hitem htotal
    obtain rfl := Option.some.inj (hvalue'.symm.trans hvalue)
    exact .inr ⟨copy, hcopy, getElem?_after_of_hands hhands hroom hitem hvalue hcopy hr⟩
  · exact .inl (Store.getElem?_after_of_unwritten (whole_of_hands hhands)
      (fun copy hr => hmem ⟨copy, hr⟩) before)

end Hands

/-- **What a launch leaves that reports a block.** -/
theorem damaged_of_breaks (hitems : ∀ index, items index ≤ 1)
    (hroom : total items task.input.length ≤ before.output.size)
    (hdelivered : ∀ block < task.cut.count, Delivered task items (task.cut.ComesTo config.width
      (cloneAlarm task.element items task.input.values · ≠ none) block) (plan.requests block))
    (hbreaks : plan.Breaks scheduling block panic requests)
    (hblames : task.cut.Blames config.width scheduling
      (cloneAlarm task.element items task.input.values) block panic) :
    Damaged task.element (selected items task.input.values 0 task.input.length) items task.input.values
      task.cut config.width scheduling block before.output
      (before.after task.element requests).output := by
  have hhands : ∀ request ∈ requests, request.Silent ∨ ∃ index, Hands task items index request := by
    intro request hr
    obtain ⟨other, hother, hr⟩ := hbreaks.planned request hr
    exact ((hdelivered other hother).only request hr).imp_right fun ⟨index, _, hhands⟩ => ⟨index, hhands⟩
  have hunwritten : ∀ slot, (∀ copy, .write slot copy ∉ requests) →
      (before.after task.element requests).output[slot]? = before.output[slot]? :=
    fun slot hnone => Store.getElem?_after_of_unwritten (whole_of_hands hhands) hnone before
  refine ⟨fun slot value => kept_or_cloned hhands hitems hroom,
    fun slot hspared => hunwritten slot fun copy hr => ?_,
    fun index value copy hitem hvalue hcopy hreaches => ?_, fun hone index hitem hnot =>
      hunwritten _ fun copy hr => ?_⟩
  · obtain ⟨index, value, hitem, htotal, hvalue, hcopy⟩ := exists_of_write hhands hr
    have hindex : index < task.input.values.size := (Array.getElem?_eq_some_iff.mp hvalue).1
    obtain ⟨panic, hpanic⟩ := hspared value
      ((getElem?_selected hitems (Nat.le_refl _)).mpr ⟨index, hindex, hitem, htotal, hvalue⟩)
    rw [hcopy] at hpanic
    cases hpanic
  · have hwrite : Hands task items index (.write (total items index) copy) :=
      ⟨hitem, value, copy, hvalue, hcopy, rfl⟩
    refine getElem?_after_of_hands hhands hroom hitem hvalue hcopy ?_
    cases hreaches with
    | inside hcomes =>
      exact hbreaks.made block hbreaks.lt (.inl rfl) _
        ((hdelivered block hbreaks.lt).all index hcomes _ hwrite)
    | @before other hother hbefore hle hlt =>
      -- no clone panics in a block that runs before
      refine hbreaks.made other hother (.inr hbefore) _ ((hdelivered other hother).all index
        ⟨hle, hlt, fun earlier hle' hlt' hne => ?_⟩ _ hwrite)
      exact absurd (hblames.before other hother hbefore earlier hle' hlt') hne
  · obtain ⟨other, hother, hor, hr⟩ := hbreaks.only hone _ hr
    obtain ⟨index', hcomes, hhands⟩ := ((hdelivered other hother).only _ hr).resolve_left id
    obtain ⟨_, _, _, _, hwrite⟩ := hhands.written
    obtain rfl := eq_of_total_eq hhands.selected hitem (Request.write.inj hwrite).1.symm
    rcases hor with rfl | hbefore
    · exact hnot (.inside hcomes)
    · exact hnot (.before hother hbefore hcomes.start_le hcomes.lt_stop)

end Writes

/-- What a run of a writing launch reports one of whose clones panics. -/
structure WriteRuns (config : LaunchConfig) (flags : View Nat) (task : Task α) (items : Nat → Nat)
    (kept : List α) (store : Store α) (places : List (Nat × Nat)) : Prop where
  /-- It can be brought to its end, -/
  ends : ∃ more, (Grid.run config.scheduling (kernel flags task) (config.geometry task.cut.count) store
    (places ++ more)).isOver = true
  /-- and then it reports one of the first panics, and leaves what the elements before it have left. -/
  reports : (Grid.run config.scheduling (kernel flags task) (config.geometry task.cut.count) store
      places).isOver = true →
    ∀ answer, (Grid.run config.scheduling (kernel flags task) (config.geometry task.cut.count) store
      places).Answers answer →
    ∃ block panic, task.cut.Blames config.width config.scheduling
        (cloneAlarm task.element items task.input.values) block panic ∧
      answer = .error (.error (.kernelFault block panic.report)) ∧
      Damaged task.element kept items task.input.values task.cut config.width config.scheduling block
        store.output (Grid.run config.scheduling (kernel flags task) (config.geometry task.cut.count)
          store places).store.output

/-- What a compaction answers and leaves if the clone of an element that is kept panics. -/
structure WriteFault (orders : Orders) (config : LaunchConfig) (element : Element α) (input : Placed α)
    (flags : View Nat) (kept : List α) (items : Nat → Nat) (address : Nat) (before : Store α)
    (cut : Decomposition) (result : Except Failure Nat × Store α) : Prop where
  /-- It reports one of the first panics, and leaves what the elements before it have left. -/
  reports : ∃ block panic, cut.Blames config.width config.scheduling
      (cloneAlarm element items input.values) block panic ∧
    result.1 = .error (.error (.kernelFault block panic.report)) ∧
    Damaged element kept items input.values cut config.width config.scheduling block before.output
      result.2.output
  /-- It comes to its writing launch, -/
  arrives : ∃ task store, task.cut = cut ∧ Arrives orders config element input flags address before task store
  /-- and so does this whatever turns its lanes take. -/
  runs : ∀ task store, Arrives orders config element input flags address before task store →
    ∀ places, WriteRuns config flags task items kept store places

section Faults

variable {orders : Orders} {config : LaunchConfig} {element : Element α} {input : Placed α}
  {flags : View Nat} {items : Nat → Nat} {address : Nat} {before store : Store α} {task : Task α}
  (equipped : Equipped orders config input.length) (hlength : input.length < Word.allocationLimit)
  (htrivial : element.isTrivial = false) (hzero : element.size = 0 → ∀ a b : α, a = b)
  (hbytes : before.output.size * element.size < Word.limit) (hitems : ∀ index, items index ≤ 1)
  (hgives : ∀ index < input.length, ∀ earlier, flags.item index earlier = .ok (items index))
  (hspeaks : ∀ index < input.length, ∀ panic, cloneAlarm element items input.values index = some panic →
    panic.isRelease = false)
  (hpanics : ∃ index < input.length, cloneAlarm element items input.values index ≠ none)

include equipped hlength htrivial hzero hbytes hitems hgives hspeaks hpanics

/-- **A compaction that comes to its writing launch reports one of the first panics**, and so does the launch
whatever turns its lanes take. -/
theorem Arrives.write_reports
    (h : Arrives orders config element input flags address before task store) :
    (∃ block panic, task.cut.Blames config.width config.scheduling
        (cloneAlarm element items input.values) block panic ∧
      (compactFlags orders config element input flags address before).1 =
        .error (.error (.kernelFault block panic.report)) ∧
      Damaged element (selected items input.values 0 input.length) items input.values task.cut
        config.width config.scheduling block before.output
        (compactFlags orders config element input flags address before).2.output) ∧
    ∀ places, WriteRuns config flags task items (selected items input.values 0 input.length) store
      places := by
  obtain rfl : task.element = element := by rw [h.same]
  obtain rfl : task.input = input := by rw [h.same]
  obtain ⟨prepared, _⟩ := h.patched.prepared hlength hbytes task.element.exists_clone_patched
    equipped.counting.perm hitems fun index hindex => hgives index hindex _
  have hcovers : task.cut.total = task.input.length := prepared.covers
  have hroom : total items task.input.length ≤ before.output.size := by
    have houtput : task.output = BlockCopy.destination task.element before.output address := by
      rw [h.same]
    have hfits : total items task.cut.total ≤ task.output.length := prepared.room
    rw [houtput, hcovers] at hfits
    exact hfits
  obtain ⟨plan, hplan⟩ := prepared.exists_plan_delivered htrivial
    fun index hindex => hgives index (hcovers ▸ hindex) (store.journal.calls[index]?.getD 0)
  have hhalts := fun block hblock => (hplan block hblock).1
  rw [← hcovers] at hspeaks hpanics
  have hbreakable := Plan.breakable_of_halts hhalts hspeaks
  have hexists := Plan.exists_breaks_of_halts hhalts prepared.count hpanics
  have hdamaged : ∀ {block panic requests} (early : Store α), early.output = before.output →
      plan.Breaks config.scheduling block panic requests →
      Damaged task.element (selected items task.input.values 0 task.input.length) items task.input.values
        task.cut config.width config.scheduling block before.output (early.after task.element requests).output := by
    intro block panic requests early hearly hbreaks
    rw [← hearly] at hroom ⊢
    rcases Nat.eq_zero_or_pos task.element.size with hempty | hsize
    · exact damaged_of_empty hempty hzero hroom (Store.size_after ..) _
    · exact damaged_of_breaks hitems hroom (fun block hblock => (hplan block hblock).2 hsize) hbreaks
        (hbreaks.blames hhalts)
  refine ⟨?_, fun places => ⟨hbreakable.exists_over rfl config.scheduling places,
    fun hover answer hanswer => ?_⟩⟩
  · obtain ⟨block, panic, after, requests, hlaunch, hbreaks, houtput⟩ := Plan.launchInOrder_breaks
      hbreakable h.valid prepared.count (equipped.writing.perm _)
      (equipped.writing.kept.imp_right fun hkept => hkept task.cut.count) rfl hexists
    rw [h.compactFlags_eq, hlaunch]
    exact ⟨block, panic, hbreaks.blames hhalts, rfl, houtput ▸ hdamaged _ h.output hbreaks⟩
  · obtain ⟨block, panic, rfl, hbreaks⟩ := hbreakable.breaks_of_isOver rfl hexists hover hanswer
    rw [Grid.run_store, h.output]
    exact ⟨block, panic, hbreaks.blames hhalts, rfl, hdamaged store h.output hbreaks⟩

/-- **A compaction fails in its writing launch if the clone of a selected element panics.** -/
theorem compactFlags_writeFault (hproduct : config.DerivesLimit) (hflags : flags.length = input.length)
    (hfits : total items input.length ≤ before.output.size) (address : Nat) :
    ∃ cut, Decomposition.forLaunch config input.length = .ok cut ∧
      WriteFault orders config element input flags (selected items input.values 0 input.length) items
        address before cut (compactFlags orders config element input flags address before) := by
  have hlimits : Word.allocationLimit < Word.limit := by decide
  obtain ⟨index, hindex, _⟩ := id hpanics
  obtain ⟨task, store, harrives, _⟩ := exists_arrives equipped.valid hproduct
    (Nat.ne_of_gt (Nat.zero_lt_of_lt hindex)) (by omega) hflags equipped.storage equipped.counting.perm hitems
    (fun index hindex => hgives index hindex (before.journal.calls[index]?.getD 0)) hfits address
  exact ⟨task.cut, harrives.cut, (harrives.write_reports equipped hlength htrivial hzero hbytes hitems hgives
    hspeaks hpanics).1, ⟨task, store, rfl, harrives⟩, fun task store harrives => (harrives.write_reports equipped
      hlength htrivial hzero hbytes hitems hgives hspeaks hpanics).2⟩

end Faults

theorem cloneAlarm_eq_some {element : Element α} {items : Nat → Nat} {values : Array α} {index : Nat}
    {panic : Panic} : cloneAlarm element items values index = some panic ↔
      items index ≠ 0 ∧ ∃ value, values[index]? = some value ∧ element.clone value = .error panic := by
  unfold cloneAlarm
  by_cases hitem : items index = 0
  · rw [if_pos hitem]
    exact ⟨nofun, fun h => absurd hitem h.1⟩
  · rw [if_neg hitem, Option.bind_eq_some_iff]
    simp only [Panic.of?_eq_some]
    exact ⟨fun h => ⟨hitem, h⟩, And.right⟩

/-- **A clone that panics is reported by the writing launch**, if the default of the block limit is a word, and
leaves exactly what the elements before it have left; without such a default the call panics. -/
theorem clone_faults_reported {orders : Orders} {config : LaunchConfig} {element : Element α}
    {input : Placed α} (equipped : Equipped orders config input.length)
    (hlength : input.length < Word.allocationLimit) (htrivial : element.isTrivial = false)
    (hzero : element.size = 0 → ∀ a b : α, a = b) {stencil : Array S}
    (hstencil : input.length ≤ stencil.size) (keeps : S → Bool) {before : Store α}
    (hbytes : before.output.size * element.size < Word.limit)
    (hfits : (kept keeps input.values stencil).length ≤ before.output.size)
    (hspeaks : ∀ value ∈ kept keeps input.values stencil, ∀ panic, element.clone value = .error panic →
      panic.isRelease = false)
    (hpanics : ∃ value ∈ kept keeps input.values stencil, ∃ panic, element.clone value = .error panic)
    (address : Nat) :
    let flags := stencilFlags stencil (.ofValue keeps) input.length
    let result := copyIfInOrder orders config element input stencil (.ofValue keeps) address before
    (config.DerivesLimit → ∃ cut, Decomposition.forLaunch config input.length = .ok cut ∧
      WriteFault orders config element input flags (kept keeps input.values stencil)
        (flagOf (fun _ => keeps) stencil) address before cut result) ∧
    (¬ config.DerivesLimit → result = (.error (.panic (.overflow .multiply)), before)) := by
  intro flags result
  have hflags : flags.length = input.length := length_stencilFlags hstencil _
  have hresult : result = compactFlags orders config element input flags address before :=
    copyIfInOrder_eq orders config element hstencil _ address before
  have hitems := flagOf_le (fun _ => keeps) stencil
  have hkept : selected (flagOf (fun _ => keeps) stencil) input.values 0 input.length =
      kept keeps input.values stencil := selected_flagOf keeps hstencil
  rw [← hkept] at hfits hspeaks hpanics ⊢
  have hlengthKept : (selected (flagOf (fun _ => keeps) stencil) input.values 0 input.length).length =
      total (flagOf (fun _ => keeps) stencil) input.length := length_selected_zero hitems (Nat.le_refl _)
  obtain ⟨value, hvalue, panic, hpanic⟩ := hpanics
  obtain ⟨index, _, hindex, hitem, hfound⟩ := mem_selected.mp hvalue
  rw [Nat.zero_add] at hindex
  rw [hresult]
  refine ⟨fun hproduct => ?_, fun hproduct => ?_⟩
  · refine compactFlags_writeFault equipped hlength htrivial hzero hbytes hitems
      (fun index hindex earlier => item_stencilFlags hstencil hindex fun _ => rfl)
      (fun index hindex panic halarm => ?_) ⟨index, hindex, ?_⟩ hproduct hflags (hlengthKept ▸ hfits) address
    · obtain ⟨hitem, value, hvalue, hpanic⟩ := cloneAlarm_eq_some.mp halarm
      exact hspeaks value
        (mem_selected.mpr ⟨index, Nat.zero_le _, by omega, hitem, hvalue⟩) panic hpanic
    · rw [cloneAlarm_eq_some.mpr ⟨hitem, value, hfound, hpanic⟩]
      nofun
  · exact compactFlags_overflows equipped.valid hproduct (Nat.ne_of_gt (Nat.zero_lt_of_lt hindex)) hflags
      address before

/-! ## A clone that panics in the earlier block -/

/-- Eight elements; the clone of the second one panics. -/
def unsteadyOctet : Placed Nat := ⟨#[0, 3, 2, 1, 4, 5, 6, 7], 0⟩

def nines : Store Nat := ⟨#[9, 9, 9, 9, 9, 9, 9, 9], .start 8⟩

/-- The later block goes first and writes all that it keeps.  In the earlier one the first two lanes move their
elements together, and the clone of 3 panics; the other two elements are never looked at. -/
theorem clone_faults_reported_fragile :
    let result := copyIf reversedPair fragile unsteadyOctet #[1, 1, 1, 1, 0, 1, 1, 1] (.ofValue (· == 1)) 0
      nines
    result.1 = .error (.error (.kernelFault 0 "clone of 3")) ∧ result.2.output[0]? = some 0 ∧
      result.2.output[1]? = some 9 ∧ result.2.output[2]? = some 9 ∧ result.2.output[4]? = some 5 := by
  intro result
  have hstencil : unsteadyOctet.length ≤ #[1, 1, 1, 1, 0, 1, 1, 1].size := by decide
  have hbytes : nines.output.size * fragile.size < Word.limit := by decide
  have hclone : ∀ value panic, fragile.clone value = .error panic →
      value = 3 ∧ panic = .raised (.composed "clone of 3") := by
    intro value panic hpanic
    simp only [fragile] at hpanic
    split at hpanic
    · exact ⟨‹_›, (Except.error.inj hpanic).symm⟩
    · cases hpanic
  obtain ⟨cut, hcut, hfault⟩ := (clone_faults_reported equipped_reversedPair (by decide) rfl
    (fun hzero => absurd hzero (by decide)) hstencil (· == 1) hbytes (by decide)
    (fun value _ panic hpanic => (hclone value panic hpanic).2 ▸ rfl) ⟨3, by decide, _, rfl⟩ 0).1
    derivesLimit_reversedPair
  obtain rfl := Except.ok.inj (forLaunch_reversedPair.symm.trans hcut)
  obtain ⟨block, panic, hblames, hanswer, hdamaged⟩ := hfault.reports
  obtain ⟨index, hcomes, halarm⟩ := hblames.element
  -- only the second element panics, and it lies in the earlier block
  obtain ⟨_, value, hvalue, hpanic⟩ := cloneAlarm_eq_some.mp halarm
  obtain ⟨rfl, rfl⟩ := hclone value panic hpanic
  have hindex : index < 8 := (Array.getElem?_eq_some_iff.mp hvalue).1
  have hsecond : ∀ index < 8, unsteadyOctet.values[index]? = some 3 → index = 1 := by decide
  obtain rfl := hsecond index hindex hvalue
  have hblock : block < 2 := hblames.lt
  obtain rfl : block = 0 := by
    by_contra hne
    obtain rfl : block = 1 := by omega
    exact absurd hcomes.start_le (by decide)
  -- three elements are kept up to 1, and 4 is not
  have hslot0 : total (flagOf (fun _ => (· == 1)) #[1, 1, 1, 1, 0, 1, 1, 1]) 0 = 0 := rfl
  have hslot2 : total (flagOf (fun _ => (· == 1)) #[1, 1, 1, 1, 0, 1, 1, 1]) 2 = 2 := by decide
  have hslot5 : total (flagOf (fun _ => (· == 1)) #[1, 1, 1, 1, 0, 1, 1, 1]) 5 = 4 := by decide
  have hfirst := hdamaged.written 0 0 0 (by decide) rfl rfl
    (.inside ⟨by decide, by decide, fun _ _ _ _ => Nat.zero_le _⟩)
  have hlater := hdamaged.written 5 5 5 (by decide) rfl rfl
    (.before (by decide) Nat.zero_lt_one (by decide) (by decide))
  have hfaulty := hdamaged.spared 1 fun value hvalue => by
    obtain rfl : 3 = value := Option.some.inj hvalue
    exact ⟨_, rfl⟩
  have hbehind := hdamaged.unwritten nofun 2 (by decide) fun hreaches => by
    cases hreaches with
    | inside hcomes' => exact absurd (hcomes'.first 1 (by decide) (by decide) (by decide)) (by decide)
    | @before other hother hbefore hle hlt =>
      obtain rfl : other = 1 := by
        have hlater : 0 < other := hbefore
        have hfew : other < 2 := hother
        omega
      exact absurd hle (by decide)
  have hnine : ∀ slot < 8, nines.output[slot]? = some 9 := by decide
  have hresult : result = copyIfInOrder (.ofConfig reversedPair) reversedPair fragile unsteadyOctet
    #[1, 1, 1, 1, 0, 1, 1, 1] (.ofValue (· == 1)) 0 nines := rfl
  rw [hslot0] at hfirst
  rw [hnine 1 (by decide)] at hfaulty
  rw [hslot2, hnine 2 (by decide)] at hbehind
  rw [hslot5] at hlater
  rw [hresult]
  exact ⟨hanswer, hfirst, hfaulty, hbehind, hlater⟩

end Compaction

end BlockMachine
