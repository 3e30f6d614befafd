import BlockMachine.Proofs.BlockScan.Interleaving
import BlockMachine.Proofs.Interleaving.Writers
import BlockMachine.Proofs.Reduction.Launch

/-!
# What a reduction combines

A block combines the items of its interval in one expression.  The expression hangs on the interval and
the number of lanes alone, and takes the items from left to right, each once.

* `Expression.shift` — an expression over slots further on.
* `Reduction.intervalTree` — the expression of an interval, and `Reduction.exists_intervalTree` says
  which items it takes.
* `Reduction.folds_carryTree` — with an operator that never panics a block carries the values of these
  expressions from chunk to chunk.
* `Reduction.reductions_reduce` — a reduction writes the value of each interval, in every order of the
  blocks and whatever turns their lanes take.
-/

set_option autoImplicit false

namespace BlockMachine

open BlockScan

namespace Expression

variable {σ : Type}

/-- The same expression over the slots from `start` on. -/
def shift (start : Nat) : Expression → Expression
  | leaf slot => leaf (start + slot)
  | node left right => node (left.shift start) (right.shift start)

@[simp] theorem leaves_shift (start : Nat) (tree : Expression) :
    (tree.shift start).leaves = tree.leaves.map (start + ·) := by
  induction tree with
  | leaf slot => rfl
  | node left right ihl ihr => rw [shift, leaves, leaves, ihl, ihr, List.map_append]

/-- A shifted expression has the value that the expression has over the later slots. -/
theorem value_shift {op : σ → σ → σ} {slots later : Array σ} {start : Nat} {tree : Expression}
    (h : ∀ slot ∈ tree.leaves, slots[start + slot]? = later[slot]?) :
    (tree.shift start).value op slots = tree.value op later := by
  induction tree with
  | leaf slot => exact h slot List.mem_cons_self
  | node left right ihl ihr =>
    have hleft := ihl fun slot hslot => h slot (List.mem_append_left _ hslot)
    have hright := ihr fun slot hslot => h slot (List.mem_append_right _ hslot)
    simp only [shift, value, hleft, hright]

end Expression

namespace Reduction

variable {σ : Type}

/-! ## The expression of an interval -/

/-- The expression of a chunk of `n` items from index `start` on. -/
def chunkTree (start n : Nat) : Expression := (tree (n - 1)).shift start

theorem leaves_chunkTree {start n : Nat} (hpos : 0 < n) :
    (chunkTree start n).leaves = List.range' start n := by
  rw [chunkTree, Expression.leaves_shift, leaves_tree, Nat.sub_add_cancel hpos,
    List.range_eq_range', List.map_add_range', Nat.add_zero]

/-- What the first lane carries after some chunks, as an expression over the items. -/
def carryTree : Option Expression → List (Nat × Nat) → Option Expression
  | carry, [] => carry
  | none, (start, n) :: rest => carryTree (some (chunkTree start n)) rest
  | some carry, (start, n) :: rest => carryTree (some (.node carry (chunkTree start n))) rest

/-- The expression of an interval, for a block of `width` lanes. -/
def intervalTree (interval : Interval) (width : Nat) : Option Expression :=
  carryTree none (chunks interval width)

/-- The items that a carry has taken. -/
def carryLeaves (carry : Option Expression) : List Nat := carry.elim [] Expression.leaves

/-- **A carry takes the items of its chunks**, each once and in order. -/
theorem carryLeaves_carryTree {width start stop : Nat} {list : List (Nat × Nat)}
    (hchunked : Chunked width start stop list) (carry : Option Expression) :
    carryLeaves (carryTree carry list) = carryLeaves carry ++ List.range' start (stop - start) := by
  induction hchunked generalizing carry with
  | nil stop => cases carry <;> simp [carryTree]
  | @cons start stop n rest hpos hn hlater ih =>
    have hle := hlater.le
    have hparts : List.range' start (stop - start) =
        List.range' start n ++ List.range' (start + n) (stop - (start + n)) := by
      rw [List.range'_append_1]
      congr 1
      omega
    cases carry with
    | none =>
      rw [carryTree, ih, hparts]
      simp only [carryLeaves, Option.elim_some, Option.elim_none, List.nil_append,
        leaves_chunkTree hpos]
    | some carry =>
      rw [carryTree, ih, hparts]
      simp only [carryLeaves, Option.elim_some, Expression.leaves, leaves_chunkTree hpos,
        List.append_assoc]

/-- **The expression of an interval takes its items**, each once and in order. -/
theorem exists_intervalTree {width : Nat} (hwidth : 0 < width) {interval : Interval}
    (hlt : interval.start < interval.stop) :
    ∃ tree, intervalTree interval width = some tree ∧
      tree.leaves = List.range' interval.start interval.length := by
  have hleaves := carryLeaves_carryTree (chunked_chunks hwidth interval (Nat.le_of_lt hlt)) none
  cases htree : intervalTree interval width with
  | none =>
    -- without an expression there would be no item
    rw [show carryTree none (chunks interval width) = none from htree] at hleaves
    have hlength := congrArg List.length hleaves
    simp [carryLeaves] at hlength
    omega
  | some tree =>
    rw [show carryTree none (chunks interval width) = some tree from htree] at hleaves
    exact ⟨tree, rfl, hleaves⟩

example : intervalTree ⟨10, 15⟩ 2 = some (.node (.node (.node (.leaf 10) (.leaf 11))
    (.node (.leaf 12) (.leaf 13))) (.leaf 14)) := by decide

/-! ## Values -/

/-- The values of a carry, if it has one. -/
def carryValue (op : σ → σ → σ) (values : Array σ) (carry : Option Expression) : Option (Option σ) :=
  carry.map (Expression.value op values)

/-- The value of a chunk is the last entry of its scan. -/
theorem value_chunkTree {op : σ → σ → σ} {values : Array σ} {start n : Nat} (hpos : 0 < n)
    (hsize : start + n ≤ values.size) :
    (chunkTree start n).value op values = (tree (n - 1)).value op (values.extract start (start + n)) := by
  apply Expression.value_shift
  intro slot hslot
  rw [leaves_tree, List.mem_range] at hslot
  rw [Array.getElem?_extract, if_pos (by omega)]

/-- **With an operator that never panics the first lane carries the values of the expressions.** -/
theorem folds_carryTree {callbacks : Callbacks σ σ} {op : σ → σ → σ}
    (hop : ∀ left right, callbacks.combine left right = .ok (op left right)) {items : Nat → σ}
    {values : Array σ} (hitems : ∀ index < values.size, values[index]? = some (items index))
    {width start stop : Nat} {list : List (Nat × Nat)} (hchunked : Chunked width start stop list)
    (hstop : stop ≤ values.size) :
    ∀ {carry : Option Expression} {held : Option σ}, carryValue op values carry = held.map some →
      ∃ last, Folds callbacks items held list last ∧
        carryValue op values (carryTree carry list) = last.map some := by
  induction hchunked with
  | nil stop =>
    intro carry held hheld
    refine ⟨held, .nil _, ?_⟩
    cases carry <;> exact hheld
  | @cons start stop n rest hpos hn hlater ih =>
    intro carry held hheld
    have hle := hlater.le
    -- the scan of the chunk ends with the value of its expression
    have hsize : (values.extract start (start + n)).size = n := by
      rw [Array.size_extract]
      omega
    have hscan := values_window hop (Nat.le_of_eq hsize.symm) (items start)
    have hentries : ∀ i < n, ((window 0 i).value op (values.extract start (start + n))).getD
        (items start) = items (start + i) := by
      intro i hi
      simp only [window, Expression.value]
      rw [Array.getElem?_extract, if_pos (by omega), hitems (start + i) (by omega), Option.getD_some]
    obtain ⟨total, htotal⟩ := exists_value_tree op
      (Nat.lt_of_lt_of_eq (Nat.sub_lt hpos Nat.one_pos) hsize.symm)
    have hlast : ((window (roundCount n) (n - 1)).value op
        (values.extract start (start + n))).getD (items start) = total := by
      have hreach : n - 1 < distance (roundCount n) :=
        Nat.lt_of_lt_of_le (Nat.sub_lt hpos Nat.one_pos) (le_distance_roundCount n)
      rw [window_eq_tree hreach, htotal, Option.getD_some]
    have hchunk : (chunkTree start n).value op values = some total :=
      (value_chunkTree hpos (by omega)).trans htotal
    cases carry with
    | none =>
      obtain rfl : held = none := Option.map_eq_none_iff.mp hheld.symm
      have hcarry : carryValue op values (some (chunkTree start n)) = (some total).map some :=
        congrArg some hchunk
      obtain ⟨last, hfolds, hvalue⟩ := ih hstop hcarry
      exact ⟨last, .cons hentries hscan (congrArg Except.ok hlast) hfolds, hvalue⟩
    | some carry =>
      obtain ⟨before, rfl, hbefore⟩ := Option.map_eq_some_iff.mp hheld.symm
      have hcarry : carryValue op values (some (.node carry (chunkTree start n))) =
          (some (op before total)).map some :=
        congrArg some (Expression.value_node hbefore.symm hchunk)
      obtain ⟨last, hfolds, hvalue⟩ := ih hstop hcarry
      refine ⟨last, .cons hentries hscan ?_ hfolds, hvalue⟩
      rw [hlast]
      exact hop before total

/-! ## Reductions -/

/-- The entries of a reduction: what each of them combines, and from which items. -/
structure Reduces (cut : Decomposition) (op : σ → σ → σ) (values : Array σ) (width : Nat)
    (entries : List σ) : Prop where
  length : entries.length = cut.count
  /-- Each entry is the value of an expression that takes the items of its interval from left to right,
  each once. -/
  tree : ∀ block < cut.count, ∃ interval tree value, cut.interval block = .ok interval ∧
    intervalTree interval width = some tree ∧
    tree.leaves = List.range' interval.start interval.length ∧
    tree.value op values = some value ∧ entries[block]? = some value
  /-- For an associative operator it is the fold of the interval, whatever the number of lanes. -/
  fold : (∀ a b c, op (op a b) c = op a (op b c)) → ∀ block < cut.count, ∀ interval,
    cut.interval block = .ok interval →
      entries[block]? = HostScan.fold? op (values.extract interval.start interval.stop).toList

/-- What holds of the launch of a reduction after some turns of its lanes. -/
structure Settles (cut : Decomposition) (entries : List σ) (before : Store σ)
    (run : List (Nat × Nat) → Grid σ σ) (places : List (Nat × Nat)) : Prop where
  /-- No block has a fault. -/
  well : ∀ block, (run places).fault? block = none
  /-- The launch can be brought to its end. -/
  ends : ∃ more, (run (places ++ more)).isOver = true
  /-- At the end the entries are there, and what lies behind them is as it was. -/
  output : (run places).isOver = true →
    (run places).store.output.toList = entries ++ before.output.toList.drop cut.count

/-- An associative operator folds the items that an expression takes. -/
theorem value_eq_fold? {op : σ → σ → σ} (hassoc : ∀ a b c, op (op a b) c = op a (op b c))
    {values : Array σ} {interval : Interval} (hstop : interval.stop ≤ values.size) {tree : Expression}
    (hleaves : tree.leaves = List.range' interval.start interval.length) :
    tree.value op values =
      HostScan.fold? op (values.extract interval.start interval.stop).toList := by
  apply Expression.value_of_assoc hassoc
  rw [hleaves]
  apply List.ext_getElem?
  intro i
  have hitem : (values.extract interval.start interval.stop).toList[i]? =
      if i < interval.length then values[interval.start + i]? else none := by
    rw [Array.getElem?_toList, Array.getElem?_extract, Nat.min_eq_left hstop, Interval.length]
  rw [List.getElem?_map, List.getElem?_map, hitem]
  by_cases hi : i < interval.length
  · have hindex : interval.start + i < values.size := by
      unfold Interval.length at hi
      omega
    rw [if_pos hi, List.getElem?_range' hi, Nat.one_mul, Option.map_some,
      Array.getElem?_eq_getElem hindex]
    rfl
  · rw [if_neg hi, List.getElem?_eq_none (by rw [List.length_range']; exact Nat.le_of_not_lt hi)]
    rfl

/-- The entry that each block computes. -/
theorem exists_totals (op : σ → σ → σ) (view : View σ) {values : Array σ} {items : Nat → σ}
    (hitems : ∀ index < values.size, values[index]? = some (items index)) {cut : Decomposition}
    (hsize : values.size = cut.total) {width : Nat} (hwidth : 0 < width) :
    ∃ totals : Nat → σ, ∀ block < cut.count,
      Folds ⟨view.item, HostScan.total op, Element.cloned 1⟩ items none
        (chunks ⟨cut.start block, cut.start (block + 1)⟩ width) (some (totals block)) ∧
      ∃ tree, intervalTree ⟨cut.start block, cut.start (block + 1)⟩ width = some tree ∧
        tree.leaves = List.range' (cut.start block) (cut.start (block + 1) - cut.start block) ∧
        tree.value op values = some (totals block) := by
  have hone : ∀ block, ∃ total, block < cut.count →
      Folds ⟨view.item, HostScan.total op, Element.cloned 1⟩ items none
        (chunks ⟨cut.start block, cut.start (block + 1)⟩ width) (some total) ∧
      ∃ tree, intervalTree ⟨cut.start block, cut.start (block + 1)⟩ width = some tree ∧
        tree.leaves = List.range' (cut.start block) (cut.start (block + 1) - cut.start block) ∧
        tree.value op values = some total := by
    intro block
    by_cases hblock : block < cut.count
    · have hlt := cut.start_lt_succ hblock
      have hstop : cut.start (block + 1) ≤ values.size := by
        rw [hsize]
        exact cut.start_le_total hblock
      obtain ⟨tree, htree, hleaves⟩ : ∃ tree,
          intervalTree ⟨cut.start block, cut.start (block + 1)⟩ width = some tree ∧
            tree.leaves = List.range' (cut.start block) (cut.start (block + 1) - cut.start block) :=
        exists_intervalTree hwidth hlt
      have hop : ∀ left right, (⟨view.item, HostScan.total op, Element.cloned 1⟩ :
          Callbacks σ σ).combine left right = .ok (op left right) := fun _ _ => rfl
      have hnone : carryValue op values none = (none : Option σ).map some := rfl
      obtain ⟨last, hfolds, hvalue⟩ := folds_carryTree hop hitems
        (chunked_chunks hwidth ⟨cut.start block, cut.start (block + 1)⟩ (Nat.le_of_lt hlt)) hstop hnone
      rw [show carryTree none (chunks ⟨cut.start block, cut.start (block + 1)⟩ width) = some tree
        from htree] at hvalue
      obtain ⟨total, rfl, htotal⟩ := Option.map_eq_some_iff.mp hvalue.symm
      exact ⟨total, fun _ => ⟨hfolds, tree, htree, hleaves, htotal.symm⟩⟩
    · exact ⟨items 0, fun h => absurd h hblock⟩
  choose totals htotals using hone
  exact ⟨totals, htotals⟩

/-- **A reduction combines the items of each interval from left to right**, each once, with any operator
that never panics, in every order of the blocks and whatever turns their lanes take. -/
theorem reductions_reduce {config : LaunchConfig} (blank : σ) (op : σ → σ → σ) {view : View σ}
    {cut : Decomposition} {values : Array σ} {before : Store σ} (hvalid : config.validate = .ok ())
    (hlength : view.length = cut.total) (hlimit : view.length < Word.allocationLimit)
    (houtput : cut.count ≤ before.output.size) (hsize : values.size = view.length)
    (hgives : ∀ index (h : index < values.size),
      view.item index (before.journal.calls[index]?.getD 0) = .ok values[index]) :
    ∃ entries, Reduces cut op values config.width entries ∧
      (∀ order : Nat → List Nat, (order cut.count).Perm (List.range cut.count) →
        ∃ after, reduceInOrder order config blank (HostScan.total op) view cut before = (.ok (), after) ∧
          after.output.toList = entries ++ before.output.toList.drop cut.count) ∧
      ∀ scheduling places, Settles cut entries before
        (Grid.run scheduling (kernel blank (HostScan.total op) view cut before.output.size)
          (config.geometry cut.count) ((logged cut before).launched config cut.count)) places := by
  obtain ⟨hwidth, _⟩ := LaunchConfig.width_of_validate hvalid
  have hcovers : values.size = cut.total := hsize.trans hlength
  have htotal : cut.total + 1 < Word.limit := by
    have hword : Word.limit = 2 * Word.allocationLimit := by decide
    have hpos : 1 < Word.allocationLimit := by decide
    omega
  have hitems : ∀ index < values.size, values[index]? = some (values[index]?.getD blank) := by
    intro index hindex
    rw [Array.getElem?_eq_getElem hindex, Option.getD_some]
  have hview : ∀ index < cut.total, view.item index (before.journal.calls[index]?.getD 0) =
      .ok (values[index]?.getD blank) := by
    intro index hindex
    have hlt : index < values.size := by omega
    rw [hgives index hlt, Array.getElem?_eq_getElem hlt, Option.getD_some]
  obtain ⟨totals, htotals⟩ := exists_totals op view hitems hcovers hwidth
  have hfolds := fun block hblock => (htotals block hblock).1
  obtain ⟨plan, hdoes⟩ := exists_plan blank hvalid htotal houtput hview hfolds
  refine ⟨(List.range cut.count).map totals, ?_, fun order horder => ?_, fun scheduling places => ?_⟩
  · have hentry : ∀ block < cut.count,
        ((List.range cut.count).map totals)[block]? = some (totals block) := by
      intro block hblock
      rw [List.getElem?_map, List.getElem?_range hblock, Option.map_some]
    refine ⟨by rw [List.length_map, List.length_range], fun block hblock => ?_,
      fun hassoc block hblock interval hinterval => ?_⟩
    · obtain ⟨_, tree, htree, hleaves, hvalue⟩ := htotals block hblock
      exact ⟨_, tree, _, cut.interval_eq htotal hblock, htree, hleaves, hvalue, hentry block hblock⟩
    · obtain ⟨_, tree, _, hleaves, hvalue⟩ := htotals block hblock
      obtain rfl := Except.ok.inj (hinterval.symm.trans (cut.interval_eq htotal hblock))
      have hstop : cut.start (block + 1) ≤ values.size := by
        rw [hcovers]
        exact cut.start_le_total hblock
      rw [hentry block hblock, ← hvalue]
      exact value_eq_fold? hassoc hstop hleaves
  · rcases Nat.eq_zero_or_pos cut.count with hzero | hpos
    · exact ⟨before, reduceInOrder_of_zero _ _ _ _ _ hlength hzero, by rw [hzero]; rfl⟩
    · obtain ⟨after, hreduce, hafter⟩ : ∃ after,
          reduceInOrder order config blank (HostScan.total op) view cut before = (.ok (), after) ∧
            Reduced cut totals before after :=
        reduceInOrder_of_folds hvalid hlength htotal hpos houtput horder hview hfolds
      exact ⟨after, hreduce, hafter.output⟩
  · have hends : ∀ block < cut.count, Block.EndWell config.width (plan.stops block) :=
      fun block hblock lane _ => ⟨(), (hdoes block hblock).ends lane⟩
    have hcalls : ((logged cut before).launched config cut.count).journal.calls =
        before.journal.calls := rfl
    have hfollows := Grid.follows_run plan hcalls scheduling places
    refine ⟨hfollows.fault?_eq_none hends, Grid.exists_run_append plan hends hcalls scheduling places,
      fun hover => ?_⟩
    rw [Grid.run_store]
    exact output_after_writes ((logged cut before).launched config cut.count) houtput
      ((writes_of_does hdoes).perm (hfollows.of_isOver hends hover).2.2.symm)

/-- Two blocks of four lanes reduce eight numbers with a difference, which is not associative; the last
block is the first to run. -/
theorem reductions_reduce_of_differences :
    let config : LaunchConfig :=
      { threadsPerBlock := 4, multiprocessors := 1, scheduling := .reversed }
    let row : Array Int := #[7, 2, 1, 9, 4, 1, 3, 8]
    ∃ after, reduce config 0 (HostScan.total fun a b => a - b) (.ofArray row) (.even 8 2)
      ⟨#[0, 0, 5], .start 8⟩ = (.ok (), after) ∧ after.output.toList = [13, 8, 5] := by
  intro config row
  let before : Store Int := ⟨#[0, 0, 5], .start 8⟩
  have hvalid : config.validate = .ok () := by decide
  have hlength : (View.ofArray row).length = (Decomposition.even 8 2).total := rfl
  have houtput : (Decomposition.even 8 2).count ≤ before.output.size := by decide
  have hgives : ∀ index (h : index < row.size),
      (View.ofArray row).item index (before.journal.calls[index]?.getD 0) = .ok row[index] := by
    intro index h
    simp only [View.ofArray, Array.getElem?_eq_getElem h]
  obtain ⟨entries, hreduces, horders, _⟩ := reductions_reduce 0 (fun a b : Int => a - b) hvalid hlength
    (by decide) houtput rfl hgives
  obtain ⟨after, hreduce, hafter⟩ := horders _ (config.scheduling.perm_order _)
  -- each entry is the value of its tree
  have hentry : ∀ block < 2, ∀ interval tree value,
      (Decomposition.even 8 2).interval block = .ok interval → intervalTree interval 4 = some tree →
        tree.value (fun a b : Int => a - b) row = some value →
          entries[block]? = some value := by
    intro block hblock interval tree value hinterval htree hvalue
    obtain ⟨interval', tree', value', hinterval', htree', _, hvalue', hentry⟩ :=
      hreduces.tree block hblock
    obtain rfl := Except.ok.inj (hinterval.symm.trans hinterval')
    obtain rfl := Option.some.inj (htree.symm.trans htree')
    rw [hentry, ← hvalue, ← hvalue']
  have hfirst := hentry 0 (by decide) ⟨0, 4⟩
    (.node (.node (.leaf 0) (.leaf 1)) (.node (.leaf 2) (.leaf 3))) 13 (by decide) (by decide) (by decide)
  have hsecond := hentry 1 (by decide) ⟨4, 8⟩
    (.node (.node (.leaf 4) (.leaf 5)) (.node (.leaf 6) (.leaf 7))) 8 (by decide) (by decide) (by decide)
  have hentries : entries = [13, 8] := by
    match entries, hreduces.length with
    | [first, second], _ =>
      obtain rfl := Option.some.inj hfirst
      obtain rfl := Option.some.inj hsecond
      rfl
  refine ⟨after, hreduce, ?_⟩
  rw [hafter, hentries]
  rfl

end Reduction

end BlockMachine
