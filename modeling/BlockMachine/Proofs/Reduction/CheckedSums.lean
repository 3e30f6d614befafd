import BlockMachine.Proofs.Compaction.Counts
import BlockMachine.Proofs.Reduction.Refusals
import BlockMachine.Proofs.Reduction.SumsFit
import BlockMachine.Proofs.Reduction.Tree

/-!
# Reductions with checked sums

* `Reduction.settles_of_folds` — a reduction whose blocks have results, in all orders of its blocks and lanes.
* `Reduction.carries_iff_sumsFit` — a block has a result if and only if the sums fit that it forms.
* `Reduction.checked_sums_reduce` — what a reduction with checked sums answers and leaves.
-/

set_option autoImplicit false

namespace BlockMachine

open BlockScan

namespace Reduction

variable {σ : Type}

/-! ## Reductions whose blocks have results -/

/-- **A reduction whose blocks have results** writes them, in every order of the blocks and whatever turns its
lanes take. -/
theorem settles_of_folds {config : LaunchConfig} (blank : σ) {op : σ → σ → Except Panic σ} {view : View σ}
    {cut : Decomposition} {items totals : Nat → σ} {before : Store σ} (hvalid : config.validate = .ok ())
    (hlength : view.length = cut.total) (hcut : cut.WithinWord) (houtput : cut.count ≤ before.output.size)
    (hgives : ∀ index < cut.total,
      view.item index (before.journal.calls[index]?.getD 0) = .ok (items index))
    (hfolds : ∀ block < cut.count, Folds ⟨view.item, op, Element.cloned 1⟩ items none
      (chunks (cut.span block) config.width) (some (totals block))) :
    (∀ order : Nat → List Nat, (order cut.count).Perm (List.range cut.count) →
      ∃ after, reduceInOrder order config blank op view cut before = (.ok (), after) ∧
        after.output.toList = (List.range cut.count).map totals ++ before.output.toList.drop cut.count) ∧
    ∀ scheduling places, Settles cut ((List.range cut.count).map totals) before
      (Grid.run scheduling (kernel blank op view cut before.output.size) (config.geometry cut.count)
        ((logged cut before).launched config cut.count)) places := by
  refine ⟨fun order horder => ?_, fun scheduling places => ?_⟩
  · rcases Nat.eq_zero_or_pos cut.count with hzero | hpos
    · exact ⟨before, reduceInOrder_of_zero _ _ _ _ _ hlength hzero, by rw [hzero]; rfl⟩
    · obtain ⟨after, hreduce, hafter⟩ :=
        reduceInOrder_of_withinWord hvalid hlength hcut hpos houtput horder hgives hfolds
      exact ⟨after, hreduce, hafter.output⟩
  · obtain ⟨plan, hdoes⟩ := exists_plan_of_withinWord blank hvalid hcut houtput hgives hfolds
    have hends : ∀ block < cut.count, Block.EndWell config.width (plan.stops block) :=
      fun block hblock lane _ => ⟨(), (hdoes block hblock).ends lane⟩
    have hcalls : ((logged cut before).launched config cut.count).journal.calls =
        before.journal.calls := rfl
    have hfollows := Grid.follows_run plan hcalls scheduling places
    refine ⟨hfollows.fault?_eq_none hends, Grid.exists_run_append plan hends hcalls scheduling places,
      fun hover => ?_⟩
    rw [Grid.run_store]
    exact output_after_writes ((logged cut before).launched config cut.count) houtput
      ((writes_of_does hdoes).perm (hfollows.of_isOver hends hover).2.2.symm)

/-- **A reduction fails if the word has no room for its intervals.** -/
theorem reduceInOrder_error_of_not_withinWord {config : LaunchConfig} {blank : σ} {op : σ → σ → Except Panic σ}
    {view : View σ} {cut : Decomposition} {before : Store σ} (hvalid : config.validate = .ok ())
    (hlength : view.length = cut.total) (hword : view.length < Word.limit)
    (houtput : cut.count ≤ before.output.size) (hlong : ¬ cut.WithinWord) {order : Nat → List Nat}
    (horder : (order cut.count).Perm (List.range cut.count)) :
    ∃ failure, (reduceInOrder order config blank op view cut before).1 = .error failure := by
  have hshort : ¬ cut.shortLength + 1 < Word.limit := fun hshort => hlong ⟨hlength ▸ hword, hshort⟩
  have hcount : 0 < cut.count := by
    -- without intervals there is no length that could leave the word
    refine Nat.pos_of_ne_zero fun hzero => hshort ?_
    rw [Decomposition.shortLength, hzero, Nat.div_zero]
    decide
  obtain ⟨failure, after, hfails⟩ :=
    reduceInOrder_error_of_long before hvalid hlength hcount houtput horder hshort
  exact ⟨failure, congrArg Prod.fst hfails⟩

/-! ## Operators that panic -/

/-- An operator that gives its left argument in the place of a panic. -/
def unchecked (op : σ → σ → Except Panic σ) (left right : σ) : σ := (op left right).toOption.getD left

/-- The panic of a combination, if it has one. -/
def combineRefusal (op : σ → σ → Except Panic σ) : Request σ σ → Option Panic
  | .combine left right => Panic.of? (op left right)
  | _ => none

/-- Combinations that panic are refused, and all else is answered as if none did. -/
theorem refuses_unchecked (view : View σ) (op : σ → σ → Except Panic σ) :
    (⟨view.item, op, Element.cloned 1⟩ : Callbacks σ σ).Refuses
      ⟨view.item, HostScan.total (unchecked op), Element.cloned 1⟩ (combineRefusal op) := by
  refine ⟨fun request sight hnone => ?_, fun request sight panic hpanic => ?_, fun _ => id⟩
  · cases request with
    | combine left right =>
      show op left right = .ok ((op left right).toOption.getD left)
      cases hsum : op left right with
      | ok sum => rfl
      | error panic =>
        rw [combineRefusal, hsum] at hnone
        cases hnone
    | _ => rfl
  · cases request with
    | combine left right => exact Panic.of?_eq_some.mp hpanic
    | _ => cases hpanic

/-! ## Checked sums -/

section Sums

variable {range : IntegerRange} {toInt : σ → Int} {panic : Panic} {op : σ → σ → Except Panic σ}
  (hop : ChecksSums range toInt panic op)

include hop

/-- Only sums that do not fit panic. -/
theorem eq_of_combineRefusal {request : Request σ σ} {other : Panic}
    (h : combineRefusal op request = some other) : other = panic := by
  cases request with
  | combine left right =>
    have hpanic : op left right = .error other := Panic.of?_eq_some.mp h
    by_cases hfits : range.Contains (toInt left + toInt right)
    · obtain ⟨sum, hsum, _⟩ := hop.fits left right hfits
      rw [hsum] at hpanic
      cases hpanic
    · exact Except.error.inj (hpanic.symm.trans (hop.exceeds left right hfits))
  | _ => cases h

/-- **A block has a result if and only if the sums fit that it forms**, and then it is the sum of its items. -/
theorem carries_iff_sumsFit {callbacks lenient : Callbacks σ σ} (hcombine : callbacks.combine = op)
    (hunchecked : lenient.combine = HostScan.total (unchecked op)) {items : Nat → σ} {calls : Array Nat}
    {width : Nat} (hwidth : 0 < width) {cut : Decomposition} {block : Nat} {total : σ}
    (hgives : Gives callbacks items (cut.start block) (cut.start (block + 1)) calls)
    (hlenient : Folds lenient items none (chunks (cut.span block) width) (some total)) :
    (SumsFit range (toInt ∘ items) (cut.start block) (chunks (cut.span block) width) ↔
      Carries callbacks items calls width (cut.span block)) ∧
    (SumsFit range (toInt ∘ items) (cut.start block) (chunks (cut.span block) width) →
      Folds callbacks items none (chunks (cut.span block) width) (some total) ∧
        toInt total = sumOf (toInt ∘ items) (cut.start block) (cut.start (block + 1))) := by
  have hchunked : Chunked width (cut.start block) (cut.start (block + 1)) (chunks (cut.span block) width) :=
    chunked_chunks hwidth (cut.span block) (cut.start_mono (Nat.le_succ block))
  have hnone : (none : Option σ).elim 0 toInt =
      sumOf (toInt ∘ items) (cut.start block) (cut.start block) := (sumOf_self ..).symm
  have hsame : ∀ left right sum, op left right = .ok sum → lenient.combine left right = .ok sum := by
    intro left right sum hsum
    rw [hunchecked, HostScan.total, unchecked, hsum]
    rfl
  have hfolds := folds_of_sumsFit hop hcombine hchunked hsame (Nat.le_refl _) hnone hlenient
  refine ⟨⟨fun hfits => ⟨hgives, total, hfolds hfits⟩, fun hcarries => ?_⟩, fun hfits =>
    ⟨hfolds hfits, (sumsFit_of_folds hop hcombine hchunked (Nat.le_refl _) hnone (hfolds hfits)).2⟩⟩
  obtain ⟨_, sum, hsum⟩ := hcarries
  exact (sumsFit_of_folds hop hcombine hchunked (Nat.le_refl _) hnone hsum).1

/-- **What a reduction with checked sums answers and leaves**, in every order of its blocks and whatever turns
its lanes take.  If all sums fit that its blocks form then it writes the sums of the intervals; and if not, it
reports a sum that does not fit.  It fails if the word has no room for its intervals.  With one lane for each
block, or numbers of one sign, it is enough that the sums from left to right fit. -/
theorem checked_sums_reduce (hspeaks : panic.isRelease = false) {config : LaunchConfig} (blank : σ)
    {view : View σ} {cut : Decomposition} {values : Array σ} {before : Store σ}
    (hvalid : config.validate = .ok ()) (hlength : view.length = cut.total)
    (houtput : cut.count ≤ before.output.size) (hsize : values.size = view.length)
    (hword : view.length < Word.limit)
    (hgives : ∀ index (h : index < values.size),
      view.item index (before.journal.calls[index]?.getD 0) = .ok values[index]) :
    let amount := fun index => toInt (values[index]?.getD blank)
    let fits := fun block =>
      SumsFit range amount (cut.start block) (chunks (cut.span block) config.width)
    let run := fun scheduling => Grid.run scheduling (kernel blank op view cut before.output.size)
      (config.geometry cut.count) ((logged cut before).launched config cut.count)
    (cut.WithinWord → (∀ block < cut.count, fits block) → ∃ entries : List σ,
      entries.map toInt =
        (List.range cut.count).map (fun block => sumOf amount (cut.start block) (cut.start (block + 1))) ∧
      (∀ order : Nat → List Nat, (order cut.count).Perm (List.range cut.count) →
        ∃ after, reduceInOrder order config blank op view cut before = (.ok (), after) ∧
          after.output.toList = entries ++ before.output.toList.drop cut.count) ∧
      ∀ scheduling places, Settles cut entries before (run scheduling) places) ∧
    (cut.WithinWord → (∃ block < cut.count, ¬ fits block) →
      (∀ order : Nat → List Nat, (order cut.count).Perm (List.range cut.count) →
        (config.scheduling = .parallel ∨ config.scheduling.order cut.count = order cut.count) →
        Blames (· = panic) config.scheduling cut.count fits
          (reduceInOrder order config blank op view cut before).1) ∧
      ∀ scheduling places, BlameRuns (· = panic) scheduling cut.count fits (run scheduling) places) ∧
    (¬ cut.WithinWord → ∀ order : Nat → List Nat, (order cut.count).Perm (List.range cut.count) →
      ∃ failure, (reduceInOrder order config blank op view cut before).1 = .error failure) ∧
    ∀ block < cut.count, (config.width = 1 ∨ 0 ≤ range.low ∨
        (∀ index, cut.start block ≤ index → index < cut.start (block + 1) → 0 ≤ amount index) ∨
        ∀ index, cut.start block ≤ index → index < cut.start (block + 1) → amount index ≤ 0) →
      LeftSumsFit range amount (cut.span block) → fits block := by
  intro amount fits run
  obtain ⟨hwidth, _⟩ := LaunchConfig.width_of_validate hvalid
  have hcovers : values.size = cut.total := hsize.trans hlength
  let items : Nat → σ := fun index => values[index]?.getD blank
  have hitem : ∀ index (h : index < values.size), items index = values[index] := by
    intro index h
    show values[index]?.getD blank = _
    rw [Array.getElem?_eq_getElem h, Option.getD_some]
  have hitems : ∀ index < values.size, values[index]? = some (items index) :=
    fun index h => hitem index h ▸ Array.getElem?_eq_getElem h
  have hview : ∀ index < cut.total,
      view.item index (before.journal.calls[index]?.getD 0) = .ok (items index) :=
    fun index hindex => hitem index (hcovers ▸ hindex) ▸ hgives index (hcovers ▸ hindex)
  -- what the blocks would do without panics
  obtain ⟨totals, htotals⟩ := exists_totals (unchecked op) view hitems hcovers hwidth
  let callbacks : Callbacks σ σ := ⟨view.item, op, Element.cloned 1⟩
  have hinterval : ∀ block < cut.count, Gives callbacks items (cut.start block) (cut.start (block + 1))
      before.journal.calls := fun block hblock index _ hlt =>
    hview index (Nat.lt_of_lt_of_le hlt (cut.start_le_total hblock))
  have hiff := fun block hblock =>
    carries_iff_sumsFit hop rfl rfl hwidth (hinterval block hblock) (htotals block hblock).1
  refine ⟨fun hcut hfits => ?_, fun hcut hunfit => ?_, fun hlong order horder => ?_,
    fun block hblock hcase hleft => ?_⟩
  · have hfolds := fun block hblock => (hiff block hblock).2 (hfits block hblock)
    obtain ⟨horders, hruns⟩ := settles_of_folds blank hvalid hlength hcut houtput hview
      fun block hblock => (hfolds block hblock).1
    refine ⟨(List.range cut.count).map totals, ?_, horders, hruns⟩
    rw [List.map_map]
    exact List.map_congr_left fun block hblock => (hfolds block (List.mem_range.mp hblock)).2
  · exact blocks_blamed blank hvalid hlength hcut houtput (refuses_unchecked view op)
      (fun _ _ => rfl) (fun _ _ => eq_of_combineRefusal hop) (fun other hother => hother ▸ hspeaks)
      (fun block hblock => ⟨hinterval block hblock, totals block, (htotals block hblock).1⟩)
      (fun block hblock => (hiff block hblock).1) hunfit
  · exact reduceInOrder_error_of_not_withinWord hvalid hlength hword houtput hlong horder
  · exact sumsFit_of_left hwidth (cut.start_mono (Nat.le_succ block)) (fun index => hop.contains _) hcase hleft

end Sums

/-! ## Numbers of both signs -/

/-- One interval of three numbers; its sums from left to right are `-1`, `0` and the largest number. -/
def mixedRow : Array Int64 := #[-1, 1, 0x7FFFFFFFFFFFFFFF]

/-- Blocks of a number of lanes, one after the other. -/
def laneConfig (lanes : UInt64) : LaunchConfig :=
  { threadsPerBlock := lanes, multiprocessors := 1, scheduling := .sequential }

/-- Three lanes also add the last two of the numbers, and report that their sum does not fit, although all sums
from left to right do.  One lane adds them from left to right. -/
theorem checked_sums_reduce_mixed_signs :
    let call := fun lanes => (reduce (laneConfig lanes) 0 (NumberType.int64.apply .checkedAdd)
      (.ofArray mixedRow) (.even 3 1) ⟨#[0], .start 3⟩).1
    LeftSumsFit (.signed UInt64.size) (fun index => (mixedRow[index]?.getD 0).toInt) ⟨0, 3⟩ ∧
    call 3 = .error (.error (.kernelFault 0 "sum overflow")) ∧ call 1 = .ok () := by
  intro call
  have hgives : ∀ index (h : index < mixedRow.size), (View.ofArray mixedRow).item index
      ((Journal.start 3).calls[index]?.getD 0) = .ok mixedRow[index] := by
    intro index h
    simp only [View.ofArray, Array.getElem?_eq_getElem h]
  have hreduce := fun lanes (hvalid : (laneConfig lanes).validate = .ok ()) =>
    @checked_sums_reduce Int64 (.signed UInt64.size) Int64.toInt _ _ NumberType.checksSums_int64 rfl
      (laneConfig lanes) 0 (.ofArray mixedRow) (.even 3 1) mixedRow ⟨#[0], .start 3⟩ hvalid rfl (by decide) rfl
      (by decide) hgives
  have hcut : (Decomposition.even 3 1).WithinWord := .of_total (by decide)
  have hleft : LeftSumsFit (.signed UInt64.size) (fun index => (mixedRow[index]?.getD 0).toInt) ⟨0, 3⟩ := by
    have hall : ∀ index < 4, 0 < index → IntegerRange.Contains (.signed UInt64.size)
        (sumOf (fun index => (mixedRow[index]?.getD 0).toInt) 0 index) := by decide
    exact fun index hlt hle => hall index (Nat.lt_succ_of_le hle) hlt
  refine ⟨hleft, ?_, ?_⟩
  · obtain ⟨_, hunfit, _⟩ := hreduce 3 rfl
    have hwindow : ¬ IntegerRange.Contains (.signed UInt64.size)
        (windowSum (fun index => (mixedRow[index]?.getD 0).toInt) 0 1 2) := by decide
    have hblock : ∃ block < (Decomposition.even 3 1).count, ¬ SumsFit (.signed UInt64.size)
        (fun index => (mixedRow[index]?.getD 0).toInt) ((Decomposition.even 3 1).start block)
        (chunks ((Decomposition.even 3 1).span block) 3) := by
      refine ⟨0, by decide, fun hfits => hwindow ?_⟩
      exact (hfits (0, 3) (by decide)).1 0 2 (by decide) (by decide)
    obtain ⟨block, hlt, _, _, panic, rfl, hanswer⟩ :=
      (hunfit hcut hblock).1 List.range (.refl _) (.inr rfl)
    obtain rfl : block = 0 := Nat.lt_one_iff.mp hlt
    exact hanswer
  · obtain ⟨hfit, _, _, hone⟩ := hreduce 1 rfl
    obtain ⟨entries, _, horders, _⟩ := hfit hcut fun block hblock => by
      obtain rfl : block = 0 := Nat.lt_one_iff.mp hblock
      exact hone 0 hblock (.inl rfl) hleft
    obtain ⟨after, hafter, _⟩ := horders List.range (.refl _)
    exact congrArg Prod.fst hafter

end Reduction

end BlockMachine
