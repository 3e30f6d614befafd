import BlockMachine.Proofs.Launch.Accounts
import BlockMachine.Proofs.Reduction.Asked
import BlockMachine.Proofs.Reduction.Block

/-!
# What a reduction leaves

* `Reduction.exists_plan` — what the blocks of a reduction do, whenever they run.
* `Reduction.reduceInOrder_of_folds` — a reduction writes what its blocks carry at the end, in any order of
  the blocks, and asks for each item once.
* `Reduction.folds_sum`, `Reduction.folds_intervals` — with checked sums a block carries the sum of its
  interval.
* `Reduction.reduceInOrder_sum` — a reduction with checked sums that do not overflow.
-/

set_option autoImplicit false

namespace BlockMachine

open Request BlockScan

namespace Reduction

variable {σ : Type}

/-- What a reduction has done: the entries of its blocks, and one more question for each item; nothing has been
cloned. -/
structure Reduced (cut : Decomposition) (totals : Nat → σ) (before after : Store σ) : Prop where
  output : after.output.toList =
    (List.range cut.count).map totals ++ before.output.toList.drop cut.count
  worked : Journal.Worked cut.total 1 0 before.journal after.journal

/-- The store once a reduction has been logged. -/
def logged (cut : Decomposition) (store : Store σ) : Store σ :=
  { store with journal := store.journal.note (.reduction cut.total cut.count) }

/-- What a block of a reduction does. -/
structure Does (cut : Decomposition) (totals : Nat → σ) (block : Nat) (requests : List (Request σ σ))
    (stops : Nat → Stop σ σ Unit) : Prop where
  ends : ∀ lane, stops lane = .finished ()
  asks : AsksEach (cut.start block) (cut.start (block + 1)) requests
  writes : Writes (Element.cloned 1) block [totals block] requests

/-- What a reduction launches once its checks have passed. -/
theorem reduceInOrder_eq (order : Nat → List Nat) (config : LaunchConfig) (blank : σ)
    (op : σ → σ → Except Panic σ) {view : View σ} {cut : Decomposition} {store : Store σ}
    (hlength : view.length = cut.total) (hcount : 0 < cut.count)
    (hsize : cut.count ≤ store.output.size) :
    reduceInOrder order config blank op view cut store =
      launchInOrder order config (kernel blank op view cut store.output.size) cut.count config.width
        (logged cut store) := by
  rw [reduceInOrder_def]
  rw [if_neg (not_not_intro hlength), if_neg (Nat.not_lt.mpr hsize), if_neg (Nat.ne_of_gt hcount)]
  rfl

/-- Without intervals nothing is launched. -/
theorem reduceInOrder_of_zero (order : Nat → List Nat) (config : LaunchConfig) (blank : σ)
    (op : σ → σ → Except Panic σ) {view : View σ} {cut : Decomposition} (store : Store σ)
    (hlength : view.length = cut.total) (hzero : cut.count = 0) :
    reduceInOrder order config blank op view cut store = (.ok (), store) := by
  rw [reduceInOrder_def]
  rw [if_neg (not_not_intro hlength), if_neg (by omega), if_pos hzero]

/-- **A reduction has a plan**: each block lays out its chunks, and writes what it carries at the end of them. -/
theorem exists_plan_laysOut {config : LaunchConfig} (blank : σ) {op : σ → σ → Except Panic σ} {view : View σ}
    {cut : Decomposition} {items totals : Nat → σ} {length : Nat} {calls : Array Nat}
    (hvalid : config.validate = .ok ()) (hcut : cut.WithinWord)
    (hsize : cut.count ≤ length)
    (hgives : ∀ index < cut.total, view.item index (calls[index]?.getD 0) = .ok (items index))
    (hfolds : ∀ block < cut.count, Folds ⟨view.item, op, Element.cloned 1⟩ items none
      (chunks ⟨cut.start block, cut.start (block + 1)⟩ config.width) (some (totals block))) :
    ∃ plan : Plan (kernel blank op view cut length) (config.geometry cut.count) calls,
      ∀ block < cut.count, Does cut totals block (plan.requests block) (plan.stops block) ∧
        LaysOut items (chunks ⟨cut.start block, cut.start (block + 1)⟩ config.width)
          (plan.stages block) := by
  obtain ⟨hwidth, _⟩ := LaunchConfig.width_of_validate hvalid
  have hslots : (Slots.blank config.width blank).size = config.width := Array.size_replicate ..
  refine Plan.exists_of_intervals (kernel blank op view cut length) (config.geometry cut.count) calls rfl cut
    (fun block stages stops =>
      Does cut totals block (stages.flatMap fun stage => stage.all config.width) stops ∧
        LaysOut items (chunks ⟨cut.start block, cut.start (block + 1)⟩ config.width) stages)
    fun block hblock => ?_
  have hstop : cut.start (block + 1) ≤ cut.total := cut.start_le_total hblock
  obtain ⟨stages, htakes⟩ := (hfolds block hblock).exists_takes
  obtain ⟨hruns, hasks, hwrites, hlays⟩ := runs_program (config.geometry cut.count) hcut hwidth hblock hsize
    hslots (fun index _ hlt => hgives index (Nat.lt_of_lt_of_le hlt hstop)) htakes
  exact ⟨_, _, hruns, fun request hr index => hasks.mem_interval hr,
    ⟨fun _ => rfl, hasks, hwrites⟩, hlays⟩

theorem exists_plan_of_withinWord {config : LaunchConfig} (blank : σ) {op : σ → σ → Except Panic σ} {view : View σ}
    {cut : Decomposition} {items totals : Nat → σ} {length : Nat} {calls : Array Nat}
    (hvalid : config.validate = .ok ()) (hcut : cut.WithinWord)
    (hsize : cut.count ≤ length)
    (hgives : ∀ index < cut.total, view.item index (calls[index]?.getD 0) = .ok (items index))
    (hfolds : ∀ block < cut.count, Folds ⟨view.item, op, Element.cloned 1⟩ items none
      (chunks ⟨cut.start block, cut.start (block + 1)⟩ config.width) (some (totals block))) :
    ∃ plan : Plan (kernel blank op view cut length) (config.geometry cut.count) calls,
      ∀ block < cut.count, Does cut totals block (plan.requests block) (plan.stops block) := by
  obtain ⟨plan, hdoes⟩ := exists_plan_laysOut blank hvalid hcut hsize hgives hfolds
  exact ⟨plan, fun block hblock => (hdoes block hblock).1⟩

theorem exists_plan {config : LaunchConfig} (blank : σ) {op : σ → σ → Except Panic σ} {view : View σ}
    {cut : Decomposition} {items totals : Nat → σ} {length : Nat} {calls : Array Nat}
    (hvalid : config.validate = .ok ()) (htotal : cut.total + 1 < Word.limit)
    (hsize : cut.count ≤ length)
    (hgives : ∀ index < cut.total, view.item index (calls[index]?.getD 0) = .ok (items index))
    (hfolds : ∀ block < cut.count, Folds ⟨view.item, op, Element.cloned 1⟩ items none
      (chunks ⟨cut.start block, cut.start (block + 1)⟩ config.width) (some (totals block))) :
    ∃ plan : Plan (kernel blank op view cut length) (config.geometry cut.count) calls,
      ∀ block < cut.count, Does cut totals block (plan.requests block) (plan.stops block) :=
  exists_plan_of_withinWord blank hvalid (.of_total htotal) hsize hgives hfolds

/-- Together the blocks write all entries. -/
theorem writes_of_does {cut : Decomposition} {totals : Nat → σ} {requests : Nat → List (Request σ σ)}
    {stops : Nat → Nat → Stop σ σ Unit}
    (hdoes : ∀ block < cut.count, Does cut totals block (requests block) (stops block)) :
    Writes (Element.cloned 1) 0 ((List.range cut.count).map totals)
      ((List.range cut.count).flatMap requests) := by
  rw [List.map_eq_flatMap]
  exact (Writes.flatMap id (fun block => [totals block]) (fun block _ => rfl)
    fun block hblock => (hdoes block hblock).writes).1

/-- What the requests of all blocks leave in the output. -/
theorem output_after_writes {cut : Decomposition} {totals : Nat → σ} (store : Store σ)
    (hsize : cut.count ≤ store.output.size) {requests : List (Request σ σ)}
    (hwrites : Writes (Element.cloned 1) 0 ((List.range cut.count).map totals) requests) :
    (store.after (Element.cloned 1) requests).output.toList =
      (List.range cut.count).map totals ++ store.output.toList.drop cut.count := by
  have houtput := Store.output_after_writes nofun (fun _ => rfl) hwrites store
    (by rw [List.length_map, List.length_range, Nat.zero_add]; exact hsize)
  rw [List.take_zero, List.nil_append, Nat.zero_add, List.length_map, List.length_range] at houtput
  exact houtput

/-- **The blocks of a reduction ask once for each item of their intervals**, and clone nothing. -/
theorem accounts_of_does {blank : σ} {op : σ → σ → Except Panic σ} {view : View σ} {cut : Decomposition}
    {totals : Nat → σ} {length : Nat} {geometry : Geometry} {calls : Array Nat}
    {plan : Plan (kernel blank op view cut length) geometry calls}
    (hdoes : ∀ block < geometry.blocks, Does cut totals block (plan.requests block) (plan.stops block)) :
    plan.Accounts cut fun _ => 0 := by
  refine ⟨fun block hblock lane _ => ⟨(), (hdoes block hblock).ends lane⟩,
    fun block hblock => (hdoes block hblock).asks, fun block hblock => clones_of_none fun request hr => ?_⟩
  obtain ⟨stage, hstage, hr⟩ := plan.mem_requests.mp hr
  have honly : ∀ lane < geometry.threads,
      (program cut (.whole 0 1 length) (geometry.context block lane)).Only
        fun request : Request σ σ => request.cloned? = none :=
    fun lane _ => only_program (fun _ hlocal => hlocal.cloned?_eq) (fun _ _ => rfl) (fun _ _ => rfl) _ _
  exact (plan.runs block hblock).only honly stage hstage request hr

/-- **A reduction writes what its blocks carry at the end**, in any order of the blocks. -/
theorem reduceInOrder_of_withinWord {order : Nat → List Nat} {config : LaunchConfig} {blank : σ}
    {op : σ → σ → Except Panic σ} {view : View σ} {cut : Decomposition} {items totals : Nat → σ}
    {store : Store σ} (hvalid : config.validate = .ok ()) (hlength : view.length = cut.total)
    (hcut : cut.WithinWord) (hcount : 0 < cut.count)
    (hsize : cut.count ≤ store.output.size)
    (horder : (order cut.count).Perm (List.range cut.count))
    (hgives : ∀ index < cut.total,
      view.item index (store.journal.calls[index]?.getD 0) = .ok (items index))
    (hfolds : ∀ block < cut.count, Folds ⟨view.item, op, Element.cloned 1⟩ items none
      (chunks ⟨cut.start block, cut.start (block + 1)⟩ config.width) (some (totals block))) :
    ∃ after, reduceInOrder order config blank op view cut store = (.ok (), after) ∧
      Reduced cut totals store after := by
  obtain ⟨plan, hdoes⟩ := exists_plan_of_withinWord blank hvalid hcut hsize hgives hfolds
  have hcalls : (logged cut store).journal.calls = store.journal.calls := rfl
  have hperm := horder.flatMap_right plan.requests
  have hwrites := (writes_of_does hdoes).perm hperm.symm
  have hlaunch := plan.launchInOrder_eq hvalid hcount horder hcalls
    fun block hblock lane _ => ⟨(), (hdoes block hblock).ends lane⟩
  have haccounts : plan.Accounts cut fun _ => 0 := accounts_of_does hdoes
  have hworked := haccounts.worked hcount hperm (Element.cloned 1) ((logged cut store).launched config cut.count)
  rw [total_of_zero fun _ => rfl] at hworked
  exact ⟨_, (reduceInOrder_eq order config blank op hlength hcount hsize).trans hlaunch,
    output_after_writes ((logged cut store).launched config cut.count) hsize hwrites, hworked.calls,
    hworked.clones⟩

theorem reduceInOrder_of_folds {order : Nat → List Nat} {config : LaunchConfig} {blank : σ}
    {op : σ → σ → Except Panic σ} {view : View σ} {cut : Decomposition} {items totals : Nat → σ}
    {store : Store σ} (hvalid : config.validate = .ok ()) (hlength : view.length = cut.total)
    (htotal : cut.total + 1 < Word.limit) (hcount : 0 < cut.count)
    (hsize : cut.count ≤ store.output.size)
    (horder : (order cut.count).Perm (List.range cut.count))
    (hgives : ∀ index < cut.total,
      view.item index (store.journal.calls[index]?.getD 0) = .ok (items index))
    (hfolds : ∀ block < cut.count, Folds ⟨view.item, op, Element.cloned 1⟩ items none
      (chunks ⟨cut.start block, cut.start (block + 1)⟩ config.width) (some (totals block))) :
    ∃ after, reduceInOrder order config blank op view cut store = (.ok (), after) ∧
      Reduced cut totals store after :=
  reduceInOrder_of_withinWord hvalid hlength (.of_total htotal) hcount hsize horder hgives hfolds

/-! ## Checked sums -/

/-- **With checked sums a block carries the sum of its interval.**  `base` is what comes before it. -/
theorem folds_sum (callbacks : Callbacks Nat Nat) (hcombine : callbacks.combine = Word.add)
    {items : Nat → Nat} {width start stop : Nat} {list : List (Nat × Nat)}
    (hchunked : Chunked width start stop list) (hlimit : total items stop < Word.limit) :
    ∀ (base : Nat) (carry : Option Nat), base + carry.getD 0 = total items start →
      ∃ last, Folds callbacks items carry list last ∧ base + last.getD 0 = total items stop ∧
        (carry.isSome ∨ start < stop → last.isSome) := by
  induction hchunked with
  | nil stop =>
    intro base carry hcarry
    exact ⟨carry, .nil _, hcarry, fun h => h.resolve_right (Nat.lt_irrefl stop)⟩
  | @cons start stop n rest hpos hn hlater ih =>
    intro base carry hcarry
    have hsum := total_add items start n
    have hstop := total_mono items hlater.le
    have hvalues : Values callbacks n (sums fun i => items (start + i)) :=
      values_sums hcombine (by omega)
    have hentry : sums (fun i => items (start + i)) (roundCount n) (n - 1) =
        total (fun i => items (start + i)) n := by
      rw [sums_last (Nat.sub_lt hpos Nat.one_pos), Nat.sub_add_cancel hpos]
    have hnext : carried callbacks carry (sums (fun i => items (start + i)) (roundCount n) (n - 1)) =
        .ok (carry.getD 0 + total (fun i => items (start + i)) n) := by
      rw [hentry]
      cases carry with
      | none => simp [carried]
      | some carry =>
        rw [Option.getD_some] at hcarry
        show callbacks.combine carry _ = _
        rw [hcombine]
        exact Word.add_eq_ok (by omega)
    obtain ⟨last, hfolds, hlast, hsome⟩ := ih hlimit base
      (some (carry.getD 0 + total (fun i => items (start + i)) n)) (by
        rw [Option.getD_some]
        omega)
    exact ⟨last, .cons (fun i _ => sums_zero _ i) hvalues hnext hfolds, hlast,
      fun _ => hsome (.inl rfl)⟩

/-- Each block carries the sum of its interval. -/
theorem folds_intervals (callbacks : Callbacks Nat Nat) (hcombine : callbacks.combine = Word.add)
    {items : Nat → Nat} {width : Nat} (hwidth : 0 < width) {cut : Decomposition}
    (hlimit : total items cut.total < Word.limit) {block : Nat} (hblock : block < cut.count) :
    Folds callbacks items none (chunks ⟨cut.start block, cut.start (block + 1)⟩ width)
      (some (total items (cut.start (block + 1)) - total items (cut.start block))) := by
  have hlt := cut.start_lt_succ hblock
  have hstop := total_mono items (cut.start_le_total hblock)
  obtain ⟨last, hfolds, hlast, hsome⟩ := folds_sum callbacks hcombine
    (chunked_chunks hwidth ⟨cut.start block, cut.start (block + 1)⟩ (Nat.le_of_lt hlt))
    (Nat.lt_of_le_of_lt hstop hlimit) (total items (cut.start block)) none rfl
  obtain ⟨sum, rfl⟩ := Option.isSome_iff_exists.mp (hsome (.inr hlt))
  have hsum : total items (cut.start (block + 1)) - total items (cut.start block) = sum := by
    rw [← hlast, Option.getD_some, Nat.add_sub_cancel_left]
  rw [hsum]
  exact hfolds

/-- **A reduction with checked sums** writes the sum of each interval. -/
theorem reduceInOrder_sum {order : Nat → List Nat} {config : LaunchConfig} {view : View Nat}
    {cut : Decomposition} {items : Nat → Nat} (blank : Nat) (store : Store Nat)
    (hvalid : config.validate = .ok ()) (hlength : view.length = cut.total)
    (hcut : cut.WithinWord) (hcount : 0 < cut.count)
    (hsize : cut.count ≤ store.output.size)
    (horder : (order cut.count).Perm (List.range cut.count))
    (hgives : ∀ index < cut.total,
      view.item index (store.journal.calls[index]?.getD 0) = .ok (items index))
    (hlimit : total items cut.total < Word.limit) :
    ∃ after, reduceInOrder order config blank Word.add view cut store = (.ok (), after) ∧
      Reduced cut (fun block => total items (cut.start (block + 1)) - total items (cut.start block))
        store after := by
  obtain ⟨hwidth, _⟩ := LaunchConfig.width_of_validate hvalid
  exact reduceInOrder_of_withinWord hvalid hlength hcut hcount hsize horder hgives
    fun block hblock => folds_intervals _ rfl hwidth hlimit hblock

end Reduction

end BlockMachine
