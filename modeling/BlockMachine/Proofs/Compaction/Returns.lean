import BlockMachine.Proofs.Compaction.Barriers
import BlockMachine.Proofs.Compaction.Counts
import BlockMachine.Proofs.Compaction.Failures

/-!
# Compactions that answer

A compaction answers with a number or with an error of the library.  The caller's code may panic, and change
its answers between the two launches; neither the host nor the lanes come to a stop by that.  Only the default
of the block limit must be a word.

* `LaunchConfig.DerivesLimit` — the default of the block limit is a word.
* `Compaction.offsets_returns` — the scan of the counts never leaves the word.
* `Compaction.compactFlags_returns` — every compaction answers.
* `Compaction.compactFlags_count` — with flags that are fixed it answers with their sum.
* `Compaction.compactFlags_overflows` — without a default one that comes to its decomposition panics.
* `Compaction.copyIfInOrder_returns`, `Compaction.copyIfMask_returns`, `Compaction.compactValid_returns` — the
  same for predicates and for masks.
-/

set_option autoImplicit false

namespace BlockMachine

open BlockScan

variable {α S : Type}

namespace LaunchConfig

/-- Whether the default of the block limit is a word. -/
def DerivesLimit (config : LaunchConfig) : Prop :=
  blocksPerMultiprocessor * config.multiprocessors.toNat < Word.limit

variable {config : LaunchConfig}

/-- The default is worked out even if a limit is set. -/
theorem blockLimit_error (h : ¬ config.DerivesLimit) :
    config.blockLimit = .error (.overflow .multiply) := by
  unfold blockLimit
  rw [show Word.mul blocksPerMultiprocessor config.multiprocessors.toNat = _ from if_neg h]
  rfl

end LaunchConfig

theorem Decomposition.forLaunch_error {config : LaunchConfig} (h : ¬ config.DerivesLimit) (n : Nat) :
    forLaunch config n = .error (.overflow .multiply) := by
  unfold forLaunch
  rw [LaunchConfig.blockLimit_error h]
  rfl

/-- A reduction of a view that fits its decomposition answers. -/
theorem Reduction.reduceInOrder_returns {σ : Type} (order : Nat → List Nat) (config : LaunchConfig)
    (blank : σ) (op : σ → σ → Except Panic σ) {view : View σ} {cut : Decomposition}
    (hlength : view.length = cut.total) (store : Store σ) :
    Returns (reduceInOrder order config blank op view cut store).1 := by
  rw [reduceInOrder_def]
  rw [if_neg (not_not_intro hlength)]
  split
  · exact .refused _
  · split
    · exact .ok ()
    · exact (inStep ..).launchInOrder_returns ..

/-- A reduction keeps the length of its output. -/
theorem Reduction.size_reduceInOrder {σ : Type} (order : Nat → List Nat) (config : LaunchConfig)
    (blank : σ) (op : σ → σ → Except Panic σ) (view : View σ) (cut : Decomposition) (store : Store σ) :
    (reduceInOrder order config blank op view cut store).2.output.size = store.output.size := by
  rw [reduceInOrder_def]
  split
  · rfl
  · split
    · rfl
    · split
      · rfl
      · exact size_launchInOrder ..

namespace Temporary

/-- A request for temporary storage is granted or refused. -/
theorem allocate_returns (config : LaunchConfig) (elementSize length : Nat) (value : α)
    (journal : Journal) : Returns (allocate config elementSize length value journal).1 := by
  unfold allocate
  cases isRefused config elementSize length with
  | true => exact .refused _
  | false => exact .ok _

/-- What has been granted holds one value. -/
theorem eq_of_allocate {config : LaunchConfig} {elementSize length : Nat} {value : α}
    {journal journal' : Journal} {values : Array α}
    (h : allocate config elementSize length value journal = (.ok values, journal')) :
    values = Array.replicate length value := by
  obtain ⟨hbytes, hlimit⟩ := within_of_allocate h
  rw [allocate_eq hbytes hlimit] at h
  exact (Except.ok.inj (Prod.mk.inj h).1).symm

end Temporary

namespace Compaction

section Flags

variable {orders : Orders} {config : LaunchConfig} {element : Element α} {input : Placed α}
  {flags : View Nat} {cut : Decomposition}

/-- The offsets are worked out or the call is refused: the scan on the host never leaves the word. -/
theorem offsets_returns {order : Nat → List Nat} (hvalid : config.validate = .ok ())
    (hlength : flags.length = cut.total) (htotal : cut.total < Word.limit) (hcount : 0 < cut.count)
    (horder : (order cut.count).Perm (List.range cut.count))
    (hflags : ∀ index earlier value, flags.item index earlier = .ok value → value ≤ 1)
    (journal : Journal) : Returns (offsets order config flags cut journal).1 := by
  have hgranted := Temporary.allocate_returns config 8 cut.count 0 journal
  rw [offsets_def]
  cases hcounts : Temporary.allocate config 8 cut.count 0 journal with
  | mk granted journal' =>
    rw [hcounts] at hgranted
    cases hgranted with
    | refused error => exact .refused error
    | ok counts =>
      obtain rfl := Temporary.eq_of_allocate hcounts
      have hreduced := Reduction.reduceInOrder_returns order config 0 Word.add hlength
        ⟨Array.replicate cut.count 0, journal'⟩
      cases hreduce : Reduction.reduceInOrder order config 0 Word.add flags cut
          ⟨Array.replicate cut.count 0, journal'⟩ with
      | mk result after =>
        rw [hreduce] at hreduced
        cases hreduced with
        | refused error =>
          simp only [hreduce]
          exact .refused error
        | ok _ =>
          have hsize := Reduction.size_reduceInOrder order config 0 Word.add flags cut
            ⟨Array.replicate cut.count 0, journal'⟩
          rw [hreduce, Array.size_replicate] at hsize
          have hscan : (HostScan.inPlace Word.add after.output.toList).result = .ok () := by
            refine inPlace_ok_of_le htotal (Nat.le_of_eq hsize) fun block value hvalue => ?_
            rw [Array.getElem?_toList] at hvalue
            exact count_le hvalid hlength htotal hcount horder hflags hreduce hvalue
          simp only [hreduce, hscan]
          exact .ok _

/-- The writing launch answers, or there is no room for it. -/
theorem write_returns (order : Nat → List Nat) (config : LaunchConfig) (flags : View Nat) (task : Task α)
    (store : Store α) : Returns (write order config flags task store).1 := by
  have hlaunch : Returns
      (launchInOrder order config (kernel flags task) task.cut.count config.width store).1 :=
    (inStep flags task _).launchInOrder_returns order store
  rw [write_def]
  by_cases hroom : store.output.size < task.offsets.back?.getD 0
  · rw [if_pos hroom]
    exact .refused _
  · rw [if_neg hroom]
    cases hcase : launchInOrder order config (kernel flags task) task.cut.count config.width store with
    | mk result after =>
      rw [hcase] at hlaunch
      cases hlaunch with
      | refused error => exact .refused error
      | ok _ => exact .ok _

theorem compactFlags_of_empty (h : input.length = 0) (orders : Orders) (config : LaunchConfig)
    (element : Element α) (flags : View Nat) (address : Nat) (store : Store α) :
    compactFlags orders config element input flags address store = (.ok 0, store) := if_pos h

/-- **Every compaction answers**, whatever the caller's code does, if the default of the block limit is a
word. -/
theorem compactFlags_returns (hproduct : config.DerivesLimit) (hlength : input.length < Word.limit)
    (hflags : flags.length = input.length)
    (hsmall : ∀ index earlier value, flags.item index earlier = .ok value → value ≤ 1)
    (hcounting : ∀ blocks, (orders.counting blocks).Perm (List.range blocks)) (address : Nat)
    (store : Store α) :
    Returns (compactFlags orders config element input flags address store).1 := by
  by_cases hempty : input.length = 0
  · rw [compactFlags_of_empty hempty]
    exact .ok 0
  rw [compactFlags_def]
  rw [if_neg hempty, if_neg (not_not_intro hflags)]
  cases hvalid : config.validate with
  | error problem => exact .refused _
  | ok _ =>
    obtain ⟨cut, hcut, hcovers, hcount⟩ :=
      Decomposition.exists_forLaunch hvalid hproduct (Nat.pos_of_ne_zero hempty)
    have hoffsets := offsets_returns hvalid (hflags.trans hcovers.symm) (hcovers ▸ hlength) hcount
      (hcounting cut.count) hsmall store.journal
    simp only [Failure.ofProblem, hcut]
    cases hfound : offsets orders.counting config flags cut store.journal with
    | mk result journal =>
      rw [hfound] at hoffsets
      cases hoffsets with
      | refused error => exact .refused error
      | ok found => exact write_returns ..

/-- The last of the offsets is the sum of the flags, if these are fixed. -/
theorem back?_offsets {order : Nat → List Nat} {items : Nat → Nat} {journal journal' : Journal}
    {found : Array Nat} (hvalid : config.validate = .ok ()) (hlength : flags.length = cut.total)
    (htotal : cut.total < Word.limit) (hcount : 0 < cut.count)
    (horder : (order cut.count).Perm (List.range cut.count)) (hitems : ∀ index, items index ≤ 1)
    (hgives : ∀ index < cut.total, flags.item index (journal.calls[index]?.getD 0) = .ok (items index))
    (h : offsets order config flags cut journal = (.ok found, journal')) :
    found.back?.getD 0 = total items cut.total := by
  obtain ⟨counts, early, after, hgranted, hreduced, _⟩ := exists_counts h
  obtain ⟨hbytes, hlimit⟩ := Temporary.within_of_allocate hgranted
  by_cases hlong : cut.shortLength + 1 < Word.limit
  · have hsum := total_le_self hitems cut.total
    obtain ⟨_, hoffsets, _⟩ := offsets_eq hvalid hlength ⟨htotal, hlong⟩ hcount hbytes hlimit horder
      hgives (Nat.lt_of_le_of_lt hsum htotal)
    rw [h] at hoffsets
    rw [Except.ok.inj (Prod.mk.inj hoffsets).1, back?_ends hcount]
  · have hsize := Temporary.size_of_allocate hgranted
    obtain ⟨failure, _, hfails⟩ := Reduction.reduceInOrder_error_of_long ⟨counts, early⟩ hvalid hlength
      hcount (Nat.le_of_eq hsize.symm) horder hlong
    rw [hreduced] at hfails
    cases hfails

/-- **A compaction that succeeds answers with the sum of its flags**, if these are fixed. -/
theorem compactFlags_count {items : Nat → Nat} {address written : Nat} {store : Store α}
    (hlength : input.length < Word.limit) (hflags : flags.length = input.length)
    (hcounting : ∀ blocks, (orders.counting blocks).Perm (List.range blocks))
    (hitems : ∀ index, items index ≤ 1)
    (hgives : ∀ index < input.length, ∀ earlier, flags.item index earlier = .ok (items index))
    (h : (compactFlags orders config element input flags address store).1 = .ok written) :
    written = total items input.length := by
  by_cases hempty : input.length = 0
  · rw [compactFlags_of_empty hempty] at h
    rw [hempty]
    exact (Except.ok.inj h).symm
  rcases arrives_or_fails orders config element flags address store hempty with
    ⟨task, after, harrives⟩ | ⟨failure, journal, hfails, _⟩
  · obtain ⟨hcovers, hcount⟩ :=
      Decomposition.of_forLaunch harrives.valid (Nat.pos_of_ne_zero hempty) harrives.cut
    have hlast := back?_offsets harrives.valid (hflags.trans hcovers.symm) (hcovers ▸ hlength) hcount
      (hcounting task.cut.count) hitems (fun index hindex => hgives index (hcovers ▸ hindex) _) harrives.offsets
    rw [harrives.compactFlags_eq] at h
    split at h
    · cases h
    · rw [← Except.ok.inj h, hlast, hcovers]
  · rw [hfails] at h
    cases h

/-- **Otherwise a compaction panics** when it comes to its decomposition, before it has written anything. -/
theorem compactFlags_overflows (hvalid : config.validate = .ok ()) (hproduct : ¬ config.DerivesLimit)
    (hempty : input.length ≠ 0) (hflags : flags.length = input.length) (address : Nat) (store : Store α) :
    compactFlags orders config element input flags address store =
      (.error (.panic (.overflow .multiply)), store) := by
  rw [compactFlags_def]
  rw [if_neg hempty, if_neg (not_not_intro hflags), hvalid, Decomposition.forLaunch_error hproduct]
  rfl

end Flags

/-! ## Masks -/

/-- The flag that a bit gives. -/
def bitFlag (mask : Mask) (index : Nat) : Nat := if mask.bit index then 1 else 0

theorem bitFlag_le (mask : Mask) (index : Nat) : bitFlag mask index ≤ 1 := by
  unfold bitFlag
  split <;> omega

/-- The number of set bits is the sum of their flags. -/
theorem countOnes_take (mask : Mask) {length : Nat} (h : length ≤ mask.length) :
    (mask.take length).countOnes = total (bitFlag mask) length := by
  have hsame : ∀ index < length, (mask.take length).bit index = mask.bit index := by
    intro index hindex
    simp only [Mask.bit, Mask.take, Nat.min_eq_left h, hindex, Nat.lt_of_lt_of_le hindex h]
  have hprefix : ∀ n ≤ length, (((List.range n).map (mask.take length).bit).filter id).length =
      total (bitFlag mask) n := by
    intro n
    induction n with
    | zero => exact fun _ => rfl
    | succ n ih =>
      intro hn
      rw [List.range_succ, List.map_append, List.filter_append, List.length_append, ih (by omega),
        total_succ, bitFlag]
      cases hbit : mask.bit n <;> simp [hsame n hn, hbit]
  have hlength : (mask.take length).length = length := Nat.min_eq_left h
  rw [Mask.countOnes, Mask.toList, hlength]
  exact hprefix length (Nat.le_refl _)

/-- The bits of a mask as flags. -/
def maskFlags (mask : Mask) (length : Nat) : View Nat :=
  (mask.take length).view.map fun bit => if bit then 1 else 0

theorem copyIfMask_eq (config : LaunchConfig) (element : Element α) {input : Placed α} {mask : Mask}
    (h : input.length ≤ mask.length) (address : Nat) (store : Store α) :
    copyIfMask config element input mask address store =
      compactFlags (.ofConfig config) config element input (maskFlags mask input.length) address store :=
  if_neg (Nat.not_lt.mpr h)

theorem copyIfInOrder_eq (orders : Orders) (config : LaunchConfig) (element : Element α)
    {input : Placed α} {stencil : Array S} (h : input.length ≤ stencil.size) (selector : Selector S)
    (address : Nat) (store : Store α) :
    copyIfInOrder orders config element input stencil selector address store =
      compactFlags orders config element input (stencilFlags stencil selector input.length) address
        store :=
  if_neg (Nat.not_lt.mpr h)

theorem maskFlags_le {mask : Mask} {length : Nat} (h : length ≤ mask.length) (index earlier value : Nat)
    (hvalue : (maskFlags mask length).item index earlier = .ok value) : value ≤ 1 := by
  unfold maskFlags at hvalue
  rw [maskFlags_item mask h] at hvalue
  by_cases hindex : index < length
  · rw [if_pos hindex] at hvalue
    obtain rfl := Except.ok.inj hvalue
    exact bitFlag_le mask index
  · rw [if_neg hindex] at hvalue
    cases hvalue

theorem stencilFlags_le (stencil : Array S) (selector : Selector S) (length index earlier value : Nat)
    (hvalue : (stencilFlags stencil selector length).item index earlier = .ok value) : value ≤ 1 := by
  have hle := View.itemOr_flags_le selector (View.ofArray (stencil.extract 0 length)) index earlier
  rw [View.itemOr, show ((View.ofArray (stencil.extract 0 length)).flags selector).item index earlier =
    .ok value from hvalue] at hle
  exact hle

/-- A new list cannot be filled only if a clone panics. -/
theorem clone_of_filled {element : Element α} {blank : α} {length : Nat} {journal journal' : Journal}
    {panic : Panic} (h : filled element blank length journal = (.error panic, journal')) :
    element.clone blank = .error panic := by
  unfold filled at h
  by_cases hone : length ≤ 1
  · rw [if_pos hone] at h
    cases h
  · rw [if_neg hone] at h
    cases hclone : element.clone blank with
    | error other =>
      rw [hclone] at h
      rw [Except.error.inj (Prod.mk.inj h).1]
    | ok copy =>
      rw [hclone] at h
      cases h

/-- A call that answers, or passes on the panic of a clone of the blank. -/
def ReturnsWith {ρ : Type} (element : Element α) (blank : α) (result : Except Failure ρ) : Prop :=
  Returns result ∨ ∃ panic, element.clone blank = .error panic ∧ result = .error (.panic panic)

section Calls

variable {orders : Orders} {config : LaunchConfig} {element : Element α} {input : Placed α}
  (hlength : input.length < Word.limit)

include hlength

theorem copyIfInOrder_returns (hproduct : config.DerivesLimit)
    (hcounting : ∀ blocks, (orders.counting blocks).Perm (List.range blocks)) (stencil : Array S)
    (selector : Selector S) (address : Nat) (store : Store α) :
    Returns (copyIfInOrder orders config element input stencil selector address store).1 := by
  by_cases hstencil : input.length ≤ stencil.size
  · rw [copyIfInOrder_eq orders config element hstencil]
    exact compactFlags_returns hproduct hlength (length_stencilFlags hstencil selector)
      (stencilFlags_le stencil selector input.length) hcounting address store
  · rw [copyIfInOrder_def, if_pos (Nat.lt_of_not_le hstencil)]
    exact .refused _

theorem copyIfMask_returns (hproduct : config.DerivesLimit) (mask : Mask) (address : Nat)
    (store : Store α) : Returns (copyIfMask config element input mask address store).1 := by
  by_cases hmask : input.length ≤ mask.length
  · rw [copyIfMask_eq config element hmask]
    exact compactFlags_returns hproduct hlength (Nat.min_eq_left hmask) (maskFlags_le hmask)
      config.scheduling.perm_order address store
  · rw [copyIfMask_def, if_pos (Nat.lt_of_not_le hmask)]
    exact .refused _

/-- A compaction by a mask that succeeds answers with the number of set bits. -/
theorem copyIfMask_count {mask : Mask} {address written : Nat} {store : Store α}
    (h : (copyIfMask config element input mask address store).1 = .ok written) :
    written = (mask.take input.length).countOnes := by
  by_cases hmask : input.length ≤ mask.length
  · rw [copyIfMask_eq config element hmask] at h
    rw [countOnes_take mask hmask]
    refine compactFlags_count hlength (Nat.min_eq_left hmask) config.scheduling.perm_order
      (bitFlag_le mask) (fun index hindex earlier => ?_) h
    unfold maskFlags
    rw [maskFlags_item mask hmask, if_pos hindex]
    rfl
  · rw [copyIfMask_def, if_pos (Nat.lt_of_not_le hmask)] at h
    cases h

/-- **The dense list of the elements with a set bit** is had or refused if the compaction answers, unless a
clone of the blank panics.  In particular its length is always right. -/
theorem compactValid_returns {mask : Mask}
    (hmask : ∀ store, Returns (copyIfMask config element input mask 0 store).1) (blank : α)
    (journal : Journal) :
    ReturnsWith element blank (compactValid config element blank input mask journal).1 := by
  unfold compactValid
  cases hfilled : filled element blank (mask.take input.length).countOnes journal with
  | mk result journal' =>
    cases result with
    | error panic =>
      exact .inr ⟨panic, clone_of_filled hfilled, by simp only [hfilled]⟩
    | ok dense =>
      refine .inl ?_
      simp only [hfilled]
      have hreturns := hmask ⟨dense, journal'⟩
      cases hcopied : copyIfMask config element input mask 0 ⟨dense, journal'⟩ with
      | mk copied after =>
        rw [hcopied] at hreturns
        cases hreturns with
        | refused error => exact .refused error
        | ok written =>
          simp only
          rw [if_pos (copyIfMask_count hlength (congrArg Prod.fst hcopied))]
          exact .ok _

end Calls

end Compaction

end BlockMachine
