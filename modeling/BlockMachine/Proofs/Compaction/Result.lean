import BlockMachine.Memory.Scalar
import BlockMachine.Proofs.Compaction.Launch

/-!
# What a compaction answers and leaves

* `Compaction.flagOf` — the flags that a stencil gives.
* `Compaction.kept` — the elements whose stencil value is wanted, in their order.
* `Compaction.compactFlags_compacts` — a compaction moves the elements with flag 1 to the front of the output
  or, if that is too small, leaves it as it is.
* `Compaction.copyIfInOrder_compacts`, `Compaction.compactions_compact` — the same for the compactions by a
  predicate.
-/

set_option autoImplicit false

namespace BlockMachine

open Request BlockScan

namespace Compaction

variable {α S : Type}

/-! ## The flags of a stencil -/

/-- The flag that a stencil gives an element, for a predicate that may look at the element's number. -/
def flagOf (keeps : Nat → S → Bool) (stencil : Array S) (index : Nat) : Nat :=
  match stencil[index]? with
  | some value => if keeps index value then 1 else 0
  | none => 0

theorem flagOf_le (keeps : Nat → S → Bool) (stencil : Array S) (index : Nat) :
    flagOf keeps stencil index ≤ 1 := by
  unfold flagOf
  split
  · split <;> omega
  · exact Nat.zero_le 1

theorem flagOf_of_some {keeps : Nat → S → Bool} {stencil : Array S} {index : Nat} {value : S}
    (h : stencil[index]? = some value) :
    flagOf keeps stencil index = if keeps index value then 1 else 0 := by
  rw [flagOf, h]

/-- The flags of the first stencil values. -/
def stencilFlags (stencil : Array S) (selector : Selector S) (length : Nat) : View Nat :=
  (View.ofArray (stencil.extract 0 length)).flags selector

theorem length_stencilFlags {stencil : Array S} {length : Nat} (h : length ≤ stencil.size)
    (selector : Selector S) : (stencilFlags stencil selector length).length = length := by
  show (stencil.extract 0 length).size = length
  rw [Array.size_extract]
  omega

/-- The flag that is worked out for an element. -/
theorem item_stencilFlags_eq {stencil : Array S} (selector : Selector S) {length index : Nat}
    (hstencil : length ≤ stencil.size) (hindex : index < length) {value : S}
    (hvalue : stencil[index]? = some value) (earlier : Nat) :
    (stencilFlags stencil selector length).item index earlier =
      (selector index earlier value).map fun answer => if answer then 1 else 0 := by
  have hextract : (stencil.extract 0 length)[index]? = some value := by
    rw [Array.getElem?_extract, Nat.zero_add, if_pos (by omega), hvalue]
  have hitem : (stencilFlags stencil selector length).item index earlier = (do
      let value ← (View.ofArray (stencil.extract 0 length)).item index earlier
      return if ← selector index earlier value then 1 else 0) := rfl
  have hview : (View.ofArray (stencil.extract 0 length)).item index earlier = .ok value := by
    simp only [View.ofArray, hextract]
  rw [hitem, hview]
  show (do return if ← selector index earlier value then 1 else 0) = _
  cases selector index earlier value <;> rfl

/-- The same for a predicate that always answers. -/
theorem item_stencilFlags {stencil : Array S} {selector : Selector S} {keeps : Nat → S → Bool}
    {length index earlier : Nat} (hstencil : length ≤ stencil.size) (hindex : index < length)
    (hselector : ∀ value, selector index earlier value = .ok (keeps index value)) :
    (stencilFlags stencil selector length).item index earlier =
      .ok (flagOf keeps stencil index) := by
  have hvalue : stencil[index]? = some stencil[index] := Array.getElem?_eq_getElem (by omega)
  rw [item_stencilFlags_eq selector hstencil hindex hvalue, hselector, flagOf_of_some hvalue]
  rfl

/-! ## The elements that are kept -/

/-- The elements whose stencil value is wanted, in their order. -/
def kept (keeps : S → Bool) (values : Array α) (stencil : Array S) : List α :=
  ((values.toList.zip stencil.toList).filter fun pair => keeps pair.2).map Prod.fst

/-- **The selected elements are those that are kept.** -/
theorem selected_flagOf (keeps : S → Bool) {values : Array α} {stencil : Array S}
    (hstencil : values.size ≤ stencil.size) :
    selected (flagOf (fun _ => keeps) stencil) values 0 values.size = kept keeps values stencil := by
  have hfront : ∀ n ≤ values.size, selected (flagOf (fun _ => keeps) stencil) values 0 n =
      (((values.toList.zip stencil.toList).take n).filter fun pair => keeps pair.2).map Prod.fst := by
    intro n
    induction n with
    | zero => exact fun _ => rfl
    | succ n ih =>
      intro hn
      have hvalue : values[0 + n]? = some values[n] := by
        rw [Nat.zero_add]
        exact Array.getElem?_eq_getElem hn
      have hwanted : stencil[0 + n]? = some stencil[n] := by
        rw [Nat.zero_add]
        exact Array.getElem?_eq_getElem (by omega)
      have hpair : (values.toList.zip stencil.toList)[n]? = some (values[n], stencil[n]) := by
        rw [Nat.zero_add] at hvalue hwanted
        rw [List.getElem?_zip_eq_some]
        exact ⟨by rwa [Array.getElem?_toList], by rwa [Array.getElem?_toList]⟩
      rw [List.take_add_one, hpair, Option.toList_some, List.filter_append, List.map_append,
        ← ih (by omega)]
      by_cases hkeeps : keeps stencil[n]
      · have hone : flagOf (fun _ => keeps) stencil (0 + n) = 1 := by
          rw [flagOf_of_some hwanted, if_pos hkeeps]
        rw [selected_succ_of_ne_zero (by rw [hone]; exact Nat.one_ne_zero) hvalue]
        simp [hkeeps]
      · have hzero : flagOf (fun _ => keeps) stencil (0 + n) = 0 := by
          rw [flagOf_of_some hwanted, if_neg hkeeps]
        rw [selected_succ_of_zero hzero]
        simp [hkeeps]
  rw [hfront _ (Nat.le_refl _), kept, List.take_of_length_le]
  rw [List.length_zip, Array.length_toList]
  exact Nat.min_le_left ..

/-- Elements that are their own stencil. -/
theorem kept_self (keeps : α → Bool) (values : Array α) :
    kept keeps values values = values.toList.filter keeps := by
  unfold kept
  induction values.toList with
  | nil => rfl
  | cons value rest ih =>
    rw [List.zip_cons_cons, List.filter_cons, List.filter_cons]
    by_cases h : keeps value
    · rw [if_pos h, if_pos h, List.map_cons, ih]
    · rw [if_neg h, if_neg h, ih]

/-! ## Results -/

/-- What a compaction answers and leaves that keeps certain elements. -/
structure Compacts (kept : List α) (before : Store α) (result : Except Failure Nat × Store α) : Prop where
  fits : kept.length ≤ before.output.size → result.1 = .ok kept.length ∧
    result.2.output.toList = kept ++ before.output.toList.drop kept.length
  exceeds : before.output.size < kept.length →
    result.1 = .error (.error (.outputTooSmall kept.length before.output.size)) ∧
    result.2.output = before.output

/-- What a compaction relies on that is to answer with a number or with an output that is too small. -/
structure Promised (orders : Orders) (config : LaunchConfig) (element : Element α) (input : Placed α)
    (before : Store α) : Prop where
  valid : config.validate = .ok ()
  /-- The default for the largest number of blocks is a word. -/
  product : blocksPerMultiprocessor * config.multiprocessors.toNat < Word.limit
  /-- There is temporary storage for a number of eight bytes for each interval: neither the allocator nor the
  limit of the configuration refuses it. -/
  storage : ∀ cut, Decomposition.forLaunch config input.length = .ok cut →
    8 * cut.count < Word.allocationLimit ∧
      ∀ limit, config.tempLimit = some limit → 8 * cut.count ≤ limit.toNat
  length : input.length < Word.allocationLimit
  bytes : before.output.size * element.size < Word.limit
  /-- Values without bytes cannot be told apart. -/
  zero : element.size = 0 → ∀ a b : α, a = b
  clone : ∀ value, element.clone value = .ok value
  counting : ∀ blocks, (orders.counting blocks).Perm (List.range blocks)
  writing : ∀ blocks, (orders.writing blocks).Perm (List.range blocks)

section Results

variable {orders : Orders} {config : LaunchConfig} {element : Element α} {input : Placed α}
  {before : Store α} (promised : Promised orders config element input before)

include promised

/-- **A compaction moves the elements with flag 1 to the front of the output**, or leaves the output as it
is if they do not fit, in any order of the blocks. -/
theorem compactFlags_compacts {flags : View Nat} {items : Nat → Nat} (address : Nat)
    (hflags : flags.length = input.length) (hitems : ∀ index, items index ≤ 1)
    (hgives : ∀ index < input.length, ∀ earlier, flags.item index earlier = .ok (items index)) :
    Compacts (selected items input.values 0 input.length) before
      (compactFlags orders config element input flags address before) := by
  have hsize : input.length = input.values.size := rfl
  by_cases hempty : input.length = 0
  · rw [hempty, selected_zero]
    refine ⟨fun _ => ?_, fun h => absurd h (Nat.not_lt_zero _)⟩
    rw [compactFlags_def, if_pos hempty]
    exact ⟨rfl, rfl⟩
  · have hlimits : Word.allocationLimit < Word.limit := by decide
    have hlength := promised.length
    have hkept : (selected items input.values 0 input.length).length = total items input.length :=
      length_selected_zero hitems (Nat.le_refl _)
    have hcounted : ∀ index < input.length,
        flags.item index (before.journal.calls[index]?.getD 0) = .ok (items index) :=
      fun index hindex => hgives index hindex _
    refine ⟨fun hfits => ?_, fun hexceeds => ?_⟩
    · obtain ⟨task, store, harrives, hselected⟩ := exists_arrives promised.valid promised.product hempty (by omega)
        hflags promised.storage promised.counting hitems hcounted (hkept ▸ hfits) address
      obtain ⟨prepared, _⟩ := harrives.prepared hlength promised.bytes
        (fun value => ⟨value, promised.clone value⟩) promised.counting hitems hcounted
      obtain rfl : task.element = element := by rw [harrives.same]
      obtain rfl : task.input = input := by rw [harrives.same]
      obtain ⟨plan, hmoves, hlaunch⟩ := prepared.launchInOrder_eq hitems
        (fun index hindex => hgives index (prepared.covers ▸ hindex) _) prepared.fits
      have hwrites := prepared.writes hmoves
      rw [harrives.compactFlags_eq, hlaunch orders.writing (promised.writing _), hkept, ← harrives.output]
      refine ⟨congrArg Except.ok hselected, ?_⟩
      have houtput := Store.output_after_writes promised.zero promised.clone
        (hwrites.perm ((promised.writing task.cut.count).flatMap_right plan.requests).symm)
        (Store.launched store config task.cut.count)
        (by rw [Nat.zero_add]; exact harrives.output ▸ hfits)
      rw [List.take_zero, List.nil_append, Nat.zero_add, hkept] at houtput
      exact houtput
    · rw [hkept] at hexceeds ⊢
      obtain ⟨journal, hresult⟩ := compactFlags_exceeds promised.valid promised.product hempty (by omega) hflags
        promised.storage promised.counting hitems hcounted hexceeds address
      rw [hresult]
      exact ⟨rfl, rfl⟩

/-- A compaction by a predicate that looks at the stencil value alone. -/
theorem copyIfInOrder_compacts {stencil : Array S} (hstencil : input.length ≤ stencil.size)
    {selector : Selector S} {keeps : S → Bool}
    (hselector : ∀ index earlier value, selector index earlier value = .ok (keeps value)) (address : Nat) :
    Compacts (kept keeps input.values stencil) before
      (copyIfInOrder orders config element input stencil selector address before) := by
  have hcheck : copyIfInOrder orders config element input stencil selector address before =
      compactFlags orders config element input (stencilFlags stencil selector input.length) address
        before := if_neg (Nat.not_lt.mpr hstencil)
  have hsize : input.values.size ≤ stencil.size := hstencil
  rw [hcheck, ← selected_flagOf keeps hsize]
  exact compactFlags_compacts promised address (length_stencilFlags hstencil selector)
    (flagOf_le _ stencil) fun index hindex earlier =>
      item_stencilFlags hstencil hindex (hselector index earlier)

/-- **Compactions by a predicate** move the elements that are wanted to the front of the output, in their
order, and leave what lies behind; if the output is too small for them, they say how large it had to be and
leave it as it is. -/
theorem compactions_compact {stencil : Array S} (hstencil : input.length ≤ stencil.size)
    (keeps : S → Bool) (wants : α → Bool) (address : Nat) :
    Compacts (kept keeps input.values stencil) before
      (copyIfInOrder orders config element input stencil (.ofValue keeps) address before) ∧
    Compacts (kept (fun value => !keeps value) input.values stencil) before
      (removeCopyIfInOrder orders config element input stencil (.ofValue keeps) address before) ∧
    Compacts (input.values.toList.filter wants) before
      (copyIfUnstenciledInOrder orders config element input (.ofValue wants) address before) := by
  refine ⟨copyIfInOrder_compacts promised hstencil (fun _ _ _ => rfl) address,
    copyIfInOrder_compacts promised hstencil (fun _ _ _ => rfl) address, ?_⟩
  rw [← kept_self wants input.values]
  exact copyIfInOrder_compacts promised (Nat.le_refl _) (fun _ _ _ => rfl) address

end Results

/-- Two blocks of two lanes, the later one first, keep three of five elements. -/
theorem compactions_compact_reversed :
    let config : LaunchConfig := {
      threadsPerBlock := 2, multiprocessors := 1, maxBlocks := some 2, scheduling := .reversed,
      tempLimit := some 16 }
    let result := copyIf config Element.int64 ⟨#[5, 8, 2, 9, 4], 24⟩ #[1, 0, 1, 1, 0]
      (.ofValue (· == (1 : Nat))) 8 ⟨#[0, 0, 0, 7], .start 5⟩
    result.1 = .ok 3 ∧ result.2.output.toList = [5, 2, 9, 7] := by
  intro config
  have hstorage : ∀ cut, Decomposition.forLaunch config 5 = .ok cut →
      8 * cut.count < Word.allocationLimit ∧
        ∀ limit, config.tempLimit = some limit → 8 * cut.count ≤ limit.toNat := by
    intro cut hcut
    have htwo : Decomposition.forLaunch config 5 = .ok (.even 5 2) := by
      unfold Decomposition.forLaunch LaunchConfig.blockLimit
      rw [Word.mul_eq_ok (by decide)]
      have hcount : min (Decomposition.blocksFor 5 config.width)
        ((config.maxBlocks.map UInt64.toNat).getD 10) = 2 := by decide
      exact congrArg (fun count => Except.ok (Decomposition.even 5 count)) hcount
    obtain rfl := Except.ok.inj (htwo.symm.trans hcut)
    refine ⟨by decide, fun limit hlimit => ?_⟩
    obtain rfl := Option.some.inj hlimit
    decide
  have promised : Promised (.ofConfig config) config Element.int64 ⟨#[5, 8, 2, 9, 4], 24⟩
      ⟨#[0, 0, 0, 7], .start 5⟩ :=
    ⟨rfl, by decide, hstorage, by decide, by decide, nofun, fun _ => rfl,
      Scheduling.reversed.perm_order, Scheduling.reversed.perm_order⟩
  have hstencil : (⟨#[5, 8, 2, 9, 4], 24⟩ : Placed Int64).length ≤ #[1, 0, 1, 1, 0].size := by decide
  exact (compactions_compact promised hstencil (· == 1) (· == 0) 8).1.fits (by decide)

end Compaction

end BlockMachine
