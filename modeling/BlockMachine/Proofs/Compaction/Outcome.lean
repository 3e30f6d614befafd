import BlockMachine.Proofs.Compaction.HostCalls
import BlockMachine.Proofs.Compaction.Result
import BlockMachine.Proofs.Interleaving.Writers

/-!
# The outcome of a compaction

Which of its checks decides what a compaction answers, if its predicate looks at the stencil value alone and no
clone panics.

* `Temporary.exceeds` — how many bytes are too many for a request.
* `Compaction.firstAnswer?` — what is answered before the predicate is called.
* `Compaction.counts_not_allocated` — storage for the counts may be refused where no limit is set.
* `Compaction.lastAnswer` — what is answered once the selected elements are counted.
* `Grid.RunsWell` — a launch without faults that never comes to a standstill.
* `Compaction.copies_turn_out` — nothing else is answered, and an error leaves the output as it is.
-/

set_option autoImplicit false

namespace BlockMachine

open BlockScan

variable {α S σ : Type}

/-! ## Requests for temporary storage -/

namespace Temporary

/-- Whether a request for so many bytes is more than the configuration allows or one allocation can have. -/
def exceeds (config : LaunchConfig) (bytes : Nat) : Bool :=
  config.tempLimit.any (fun limit => limit.toNat < bytes) || Word.allocationLimit ≤ bytes

/-- **Only the number of bytes decides a request.**  One that leaves the word is too large for any allocation. -/
theorem isRefused_eq (config : LaunchConfig) (elementSize length : Nat) :
    isRefused config elementSize length = exceeds config (length * elementSize) := by
  have hhalf : Word.allocationLimit ≤ Word.limit := by decide
  have hlimit : (exceeded? config (length * elementSize)).isSome =
      config.tempLimit.any fun limit => limit.toNat < length * elementSize := by
    unfold exceeded?
    cases config.tempLimit with
    | none => rfl
    | some limit =>
      show (if limit.toNat < length * elementSize then some limit.toNat else none).isSome = _
      rw [Option.any_some]
      split <;> simp_all
  rw [isRefused, exceeds, hlimit]
  by_cases hword : Word.limit ≤ length * elementSize
  · have hall : Word.allocationLimit ≤ length * elementSize := Nat.le_trans hhalf hword
    simp [hall]
  · simp [hword]

/-- What is not too much is within both limits. -/
theorem within_of_not_exceeds {config : LaunchConfig} {bytes : Nat} (h : exceeds config bytes = false) :
    bytes < Word.allocationLimit ∧ ∀ limit, config.tempLimit = some limit → bytes ≤ limit.toNat := by
  rw [exceeds, Bool.or_eq_false_iff, decide_eq_false_iff_not, Nat.not_le] at h
  refine ⟨h.2, fun limit hlimit => ?_⟩
  have hany := h.1
  rw [hlimit, Option.any_some, decide_eq_false_iff_not] at hany
  exact Nat.le_of_not_lt hany

/-- **A request for too many bytes** fails, and at most logs that it does. -/
theorem allocate_of_exceeds {config : LaunchConfig} {elementSize length : Nat}
    (h : exceeds config (length * elementSize) = true) (value : α) (journal : Journal) :
    ∃ after, allocate config elementSize length value journal =
        (.error (.error (.allocationFailed length elementSize)), after) ∧
      after.calls = journal.calls ∧ after.clones = journal.clones := by
  rw [← isRefused_eq] at h
  unfold allocate
  rw [if_pos h]
  refine ⟨_, rfl, ?_⟩
  cases logged config elementSize length <;> exact ⟨rfl, rfl⟩

end Temporary

namespace Decomposition

/-- The number of blocks is rounded up, and no more than there are indices. -/
theorem blocksFor_eq {n width : Nat} (hwidth : 0 < width) : blocksFor n width = (n + width - 1) / width := by
  rw [blocksFor, Nat.max_eq_left hwidth, Nat.add_sub_assoc hwidth]

theorem blocksFor_le {n width : Nat} (hwidth : 0 < width) : blocksFor n width ≤ n := by
  obtain ⟨more, rfl⟩ := Nat.exists_eq_succ_of_ne_zero (Nat.ne_of_gt hwidth)
  rcases Nat.eq_zero_or_pos n with rfl | hn
  · rw [blocksFor_eq hwidth, Nat.zero_add]
    exact Nat.le_of_eq (Nat.div_eq_of_lt (Nat.sub_lt hwidth Nat.one_pos))
  · rw [blocksFor_eq hwidth]
    refine Nat.div_le_of_le_mul ?_
    rw [Nat.succ_mul]
    have hmul : more ≤ more * n := Nat.le_mul_of_pos_right more hn
    omega

/-- **The number of blocks of a launch** over indices that there are. -/
theorem count_forLaunch {config : LaunchConfig} {limit n : Nat} {cut : Decomposition}
    (hlimit : config.blockLimit = .ok limit) (hwidth : 0 < config.width)
    (h : forLaunch config n = .ok cut) : cut.count = min ((n + config.width - 1) / config.width) limit := by
  unfold forLaunch at h
  rw [hlimit] at h
  obtain rfl := Except.ok.inj h
  have hle : blocksFor n config.width ≤ n := blocksFor_le hwidth
  show min (min (blocksFor n config.width) limit) n = _
  rw [← blocksFor_eq hwidth]
  omega

end Decomposition

/-! ## Launches that run well -/

/-- **A launch that runs well**, whatever turns its lanes take: no block has a fault, and it can always be
brought to its end. -/
structure Grid.RunsWell (run : List (Nat × Nat) → Grid σ α) : Prop where
  well : ∀ places block, (run places).fault? block = none
  ends : ∀ places, ∃ more, (run (places ++ more)).isOver = true

theorem Plan.runsWell {kernel : Kernel σ α} {geometry : Geometry} {store : Store α}
    (plan : Plan kernel geometry store.journal.calls)
    (hends : ∀ block < geometry.blocks, Block.EndWell geometry.threads (plan.stops block))
    (scheduling : Scheduling) : Grid.RunsWell (Grid.run scheduling kernel geometry store) :=
  ⟨fun places => (Grid.follows_run plan rfl scheduling places).fault?_eq_none hends,
    Grid.exists_run_append plan hends rfl scheduling⟩

namespace Compaction

/-! ## What decides -/

/-- What a compaction answers before it calls its predicate, if one of its first checks decides: the lengths, an
empty input, the configuration and the storage for the number of selected elements of each block. -/
def firstAnswer? (config : LaunchConfig) (length stencil limit : Nat) : Option (Except LibraryError Nat) :=
  if stencil < length then some (.error (.lengthMismatch length stencil))
  else if length = 0 then some (.ok 0)
  else match config.validate with
    | .error problem => some (.error (.invalidConfig problem))
    | .ok () =>
      let blocks := min ((length + config.width - 1) / config.width) limit
      if Temporary.exceeds config (8 * blocks) then some (.error (.allocationFailed blocks 8)) else none

/-- What it answers otherwise: the number of selected elements, or that the output has no room for them. -/
def lastAnswer (selected room : Nat) : Except LibraryError Nat :=
  if room < selected then .error (.outputTooSmall selected room) else .ok selected

/-- What is left of a call that has only logged something. -/
structure Untouched (before after : Store α) : Prop where
  output : after.output = before.output
  calls : after.journal.calls = before.journal.calls
  clones : after.journal.clones = before.journal.clones

theorem Untouched.refl (store : Store α) : Untouched store store := ⟨rfl, rfl, rfl⟩

/-- The number of selected elements among the first ones. -/
theorem total_flagOf (keeps : S → Bool) (stencil : Array S) {length : Nat} (h : length ≤ stencil.size) :
    total (flagOf (fun _ => keeps) stencil) length = (stencil.toList.take length).countP keeps := by
  induction length with
  | zero => rfl
  | succ length ih =>
    have hvalue : stencil[length]? = some stencil[length] := Array.getElem?_eq_getElem h
    rw [total_succ, ih (Nat.le_of_succ_le h), List.take_add_one, Array.getElem?_toList, hvalue,
      Option.toList_some, List.countP_append, List.countP_singleton, flagOf_of_some hvalue]

section Answers

variable {orders : Orders} {config : LaunchConfig} {element : Element α} {input : Placed α}
  {stencil : Array S} {before : Store α} {limit : Nat}

/-- **If one of the first checks decides** then the predicate is not called, whatever it is. -/
theorem copyIfInOrder_of_firstAnswer? (hlimit : config.blockLimit = .ok limit)
    {answer : Except LibraryError Nat}
    (h : firstAnswer? config input.length stencil.size limit = some answer) (orders : Orders)
    (element : Element α) (selector : Selector S) (address : Nat) (before : Store α) :
    ∃ after, copyIfInOrder orders config element input stencil selector address before =
      (answer.mapError Failure.error, after) ∧ Untouched before after := by
  unfold firstAnswer? at h
  by_cases hshort : stencil.size < input.length
  · rw [if_pos hshort] at h
    obtain rfl := Option.some.inj h
    exact ⟨before, if_pos hshort, .refl before⟩
  have hstencil : input.length ≤ stencil.size := Nat.le_of_not_lt hshort
  rw [if_neg hshort] at h
  rw [copyIfInOrder_eq orders config element hstencil]
  by_cases hempty : input.length = 0
  · rw [if_pos hempty] at h
    obtain rfl := Option.some.inj h
    exact ⟨before, compactFlags_of_empty hempty .., .refl before⟩
  rw [if_neg hempty] at h
  rw [compactFlags_def]
  rw [if_neg hempty, if_neg (not_not_intro (length_stencilFlags hstencil selector))]
  cases hvalid : config.validate with
  | error problem =>
    rw [hvalid] at h
    obtain rfl := Option.some.inj h
    exact ⟨before, rfl, .refl before⟩
  | ok _ =>
    rw [hvalid] at h
    obtain ⟨hwidth, _⟩ := LaunchConfig.width_of_validate hvalid
    obtain ⟨cut, hcut⟩ : ∃ cut, Decomposition.forLaunch config input.length = .ok cut :=
      ⟨_, by unfold Decomposition.forLaunch; rw [hlimit]; rfl⟩
    simp only [← Decomposition.count_forLaunch hlimit hwidth hcut] at h
    split at h
    · next hexceeds =>
      obtain rfl := Option.some.inj h
      rw [Nat.mul_comm] at hexceeds
      obtain ⟨journal, hallocate, hcalls, hclones⟩ :=
        Temporary.allocate_of_exceeds hexceeds 0 before.journal
      refine ⟨{ before with journal := journal }, ?_, rfl, hcalls, hclones⟩
      simp only [Failure.ofProblem, hcut, offsets_def, hallocate]
      rfl
    · cases h

/-- What is known once none of the first checks has decided. -/
theorem of_firstAnswer?_none (hlimit : config.blockLimit = .ok limit)
    (h : firstAnswer? config input.length stencil.size limit = none) :
    input.length ≤ stencil.size ∧ input.length ≠ 0 ∧ config.validate = .ok () ∧
      ∀ cut, Decomposition.forLaunch config input.length = .ok cut →
        8 * cut.count < Word.allocationLimit ∧
          ∀ limit, config.tempLimit = some limit → 8 * cut.count ≤ limit.toNat := by
  unfold firstAnswer? at h
  split at h
  · cases h
  next hstencil =>
  split at h
  · cases h
  next hempty =>
  split at h
  · cases h
  next hvalid =>
  refine ⟨Nat.le_of_not_lt hstencil, hempty, hvalid, fun cut hcut => ?_⟩
  obtain ⟨hwidth, _⟩ := LaunchConfig.width_of_validate hvalid
  rw [Decomposition.count_forLaunch hlimit hwidth hcut]
  simp only at h
  split at h
  · cases h
  next hwithin => exact Temporary.within_of_not_exceeds (Bool.eq_false_iff.mpr hwithin)

end Answers

/-- An error of the first checks is no count, also where the output could hold all that is kept. -/
theorem not_compacts_of_firstAnswer? {config : LaunchConfig} {input : Placed α} {before : Store α} {limit : Nat}
    (hlimit : config.blockLimit = .ok limit) {problem : LibraryError}
    (h : firstAnswer? config input.length input.values.size limit = some (.error problem))
    (element : Element α) (selector : Selector α) (address : Nat) {kept : List α}
    (hfits : kept.length ≤ before.output.size) :
    (copyIfUnstenciled config element input selector address before).1 = .error (.error problem) ∧
      ¬Compacts kept before (copyIfUnstenciled config element input selector address before) := by
  obtain ⟨after, hresult, _⟩ :=
    copyIfInOrder_of_firstAnswer? hlimit h (.ofConfig config) element selector address before
  rw [copyIfUnstenciled, copyIfUnstenciledInOrder, hresult]
  exact ⟨rfl, fun hcompacts => nomatch (hcompacts.fits hfits).1⟩

/-- Blocks of one lane, and as many of them as there are elements. -/
def narrowConfig : LaunchConfig := { threadsPerBlock := 1, multiprocessors := 0x1000000000000000 }

/-- So many bytes that there is no storage for a count of each block of one lane. -/
def manyBytes : Placed (Vector UInt8 1) := ⟨Array.replicate (2 ^ 60) #v[0], 0⟩

theorem length_manyBytes : manyBytes.length = 2 ^ 60 := Array.size_replicate

/-- **The counts of the blocks can be too many for any allocation**, also where the configuration sets no limit: of
2^60 bytes that are not wanted none is kept and the output need not hold any, but the counts of the 2^60 blocks
have 2^63 bytes. -/
theorem counts_not_allocated :
    let before : Store (Vector UInt8 1) := ⟨#[], .start (2 ^ 60)⟩
    let unwanted : Vector UInt8 1 → Bool := fun _ => false
    narrowConfig.validate = .ok () ∧ narrowConfig.DerivesLimit ∧ narrowConfig.tempLimit = none ∧
      manyBytes.length < Word.allocationLimit ∧ manyBytes.values.toList.filter unwanted = [] ∧
      (copyIfUnstenciled narrowConfig (.raw 1) manyBytes (.ofValue unwanted) 0 before).1 =
        .error (.error (.allocationFailed (2 ^ 60) 8)) ∧
      ¬Compacts (manyBytes.values.toList.filter unwanted) before
        (copyIfUnstenciled narrowConfig (.raw 1) manyBytes (.ofValue unwanted) 0 before) := by
  intro before unwanted
  have hkept : manyBytes.values.toList.filter unwanted = [] :=
    List.filter_eq_nil_iff.mpr fun _ _ => Bool.false_ne_true
  have hproduct : narrowConfig.DerivesLimit := by unfold LaunchConfig.DerivesLimit; decide
  have hlimit : narrowConfig.blockLimit = .ok (10 * 2 ^ 60) := by
    unfold LaunchConfig.blockLimit
    rw [Word.mul_eq_ok hproduct]
    rfl
  have hfirst : firstAnswer? narrowConfig manyBytes.length manyBytes.values.size (10 * 2 ^ 60) =
      some (.error (.allocationFailed (2 ^ 60) 8)) := by
    rw [show manyBytes.values.size = 2 ^ 60 from length_manyBytes, length_manyBytes]
    decide
  have hfits : (manyBytes.values.toList.filter unwanted).length ≤ before.output.size := by
    rw [hkept]
    exact Nat.zero_le _
  have hlength : manyBytes.length < Word.allocationLimit := by
    rw [length_manyBytes]
    decide
  exact ⟨rfl, hproduct, rfl, hlength, hkept,
    not_compacts_of_firstAnswer? hlimit hfirst (.raw 1) (.ofValue unwanted) 0 hfits⟩

/-! ## The outcome -/

/-- What a compaction that selects `selected` elements answers and leaves, and how its two launches run. -/
structure Concludes (orders : Orders) (config : LaunchConfig) (element : Element α) (input : Placed α)
    (flags : View Nat) (address selected : Nat) (before : Store α)
    (result : Except Failure Nat × Store α) : Prop where
  answers : result.1 = (lastAnswer selected before.output.size).mapError Failure.error
  leaves : before.output.size < selected → result.2.output = before.output
  counting : ∀ cut, Decomposition.forLaunch config input.length = .ok cut → ∀ scheduling,
    Grid.RunsWell (Grid.run scheduling (Reduction.kernel 0 Word.add flags cut cut.count)
      (config.geometry cut.count)
      ((Reduction.logged cut ⟨Array.replicate cut.count 0, before.journal⟩).launched config cut.count))
  writing : ∀ task store, Arrives orders config element input flags address before task store →
    ∀ scheduling, Grid.RunsWell (Grid.run scheduling (kernel flags task) (config.geometry task.cut.count)
      store)

section Outcome

variable {orders : Orders} {config : LaunchConfig} {element : Element α} {input : Placed α}
  {flags : View Nat} {items : Nat → Nat} {before : Store α}
  (hproduct : config.DerivesLimit) (hlength : input.length < Word.allocationLimit)
  -- an output of more bytes would be larger than all memory
  (hbytes : before.output.size * element.size < Word.limit)
  (hclone : ∀ value, ∃ copy, element.clone value = .ok copy)
  (hcounting : ∀ blocks, (orders.counting blocks).Perm (List.range blocks))
  (hwriting : ∀ blocks, (orders.writing blocks).Perm (List.range blocks))

include hproduct hlength hbytes hclone hcounting hwriting

/-- **A compaction with storage** counts its flags, and moves the elements if there is room for them. -/
theorem compactFlags_concludes (hvalid : config.validate = .ok ()) (hempty : input.length ≠ 0)
    (hstorage : ∀ cut, Decomposition.forLaunch config input.length = .ok cut →
      8 * cut.count < Word.allocationLimit ∧
        ∀ limit, config.tempLimit = some limit → 8 * cut.count ≤ limit.toNat)
    (hflags : flags.length = input.length) (hitems : ∀ index, items index ≤ 1)
    (hgives : ∀ index < input.length, ∀ earlier, flags.item index earlier = .ok (items index))
    (address : Nat) :
    Concludes orders config element input flags address (total items input.length) before
      (compactFlags orders config element input flags address before) := by
  have hlimits : Word.allocationLimit < Word.limit := by decide
  obtain ⟨hwidth, _⟩ := LaunchConfig.width_of_validate hvalid
  have hcounted : ∀ index < input.length,
      flags.item index (before.journal.calls[index]?.getD 0) = .ok (items index) :=
    fun index hindex => hgives index hindex _
  -- what holds of any task that the compaction comes to
  have hprepared : ∀ task store, Arrives orders config element input flags address before task store →
      ∃ plan : Plan (kernel flags task) (config.geometry task.cut.count) store.journal.calls,
        (∀ block < task.cut.count, Block.EndWell config.width (plan.stops block)) ∧
        ∃ after, launchInOrder orders.writing config (kernel flags task) task.cut.count config.width
          store = (.ok (), after) := by
    intro task store harrives
    obtain ⟨prepared, _⟩ := harrives.prepared hlength hbytes hclone hcounting hitems
      fun index hindex => hgives index hindex _
    have hinput : task.input = input := by rw [harrives.same]
    obtain ⟨plan, hmoves, hlaunch⟩ := prepared.launchInOrder_eq hitems
      (fun index hindex => hgives index (by rwa [prepared.covers, hinput] at hindex) _) prepared.fits
    exact ⟨plan, hmoves.ends, _, hlaunch orders.writing (hwriting _)⟩
  have hexceeded : before.output.size < total items input.length → ∃ journal,
      compactFlags orders config element input flags address before = (_, { before with journal := journal }) :=
    fun hexceeds => compactFlags_exceeds hvalid hproduct hempty (by omega) hflags hstorage hcounting hitems hcounted
      hexceeds address
  refine ⟨?_, fun hexceeds => ?_, fun cut hcut scheduling => ?_, fun task store harrives scheduling => ?_⟩
  · by_cases hroom : before.output.size < total items input.length
    · obtain ⟨journal, hresult⟩ := hexceeded hroom
      rw [hresult, lastAnswer, if_pos hroom]
      rfl
    · obtain ⟨task, store, harrives, hselected⟩ := exists_arrives hvalid hproduct hempty (by omega) hflags hstorage
        hcounting hitems hcounted (Nat.le_of_not_lt hroom) address
      obtain ⟨_, _, after, hlaunch⟩ := hprepared _ _ harrives
      rw [harrives.compactFlags_eq, hlaunch, lastAnswer, if_neg hroom]
      exact congrArg Except.ok hselected
  · obtain ⟨journal, hresult⟩ := hexceeded hexceeds
    rw [hresult]
  · have hcovers := Decomposition.total_forLaunch hcut
    have hsum := total_le_self hitems cut.total
    obtain ⟨plan, hdoes⟩ := Reduction.exists_plan_of_withinWord 0 hvalid (.of_total (by omega))
      (Nat.le_refl cut.count)
      (fun index hindex => hgives index (hcovers ▸ hindex) (before.journal.calls[index]?.getD 0))
      fun block hblock => Reduction.folds_intervals _ rfl hwidth (by omega) hblock
    exact plan.runsWell (fun block hblock lane _ => ⟨(), (hdoes block hblock).ends lane⟩) scheduling
  · obtain ⟨plan, hends, _⟩ := hprepared task store harrives
    exact plan.runsWell hends scheduling

/-- **What a compaction answers**, with a predicate that looks at the stencil value alone and clones that never
panic.  The first check that decides is told before the predicate is called; otherwise the selected elements are
counted.  Nothing panics then, whatever turns the lanes take, and an error leaves the output as it is. -/
theorem copies_turn_out (stencil : Array S) (keeps : S → Bool) (address : Nat) :
    ∃ limit, config.blockLimit = .ok limit ∧
      match firstAnswer? config input.length stencil.size limit with
      | some answer => ∀ selector, ∃ after,
          copyIfInOrder orders config element input stencil selector address before =
            (answer.mapError Failure.error, after) ∧ Untouched before after
      | none => Concludes orders config element input
          (stencilFlags stencil (.ofValue keeps) input.length) address
          ((stencil.toList.take input.length).countP keeps) before
          (copyIfInOrder orders config element input stencil (.ofValue keeps) address before) := by
  obtain ⟨limit, hlimit⟩ : ∃ limit, config.blockLimit = .ok limit :=
    ⟨_, by unfold LaunchConfig.blockLimit; rw [Word.mul_eq_ok hproduct]; rfl⟩
  refine ⟨limit, hlimit, ?_⟩
  cases hfirst : firstAnswer? config input.length stencil.size limit with
  | some answer =>
    exact fun selector =>
      copyIfInOrder_of_firstAnswer? hlimit hfirst orders element selector address before
  | none =>
    obtain ⟨hstencil, hempty, hvalid, hstorage⟩ := of_firstAnswer?_none hlimit hfirst
    show Concludes ..
    rw [copyIfInOrder_eq orders config element hstencil, ← total_flagOf keeps stencil hstencil]
    exact compactFlags_concludes hproduct hlength hbytes hclone hcounting hwriting hvalid hempty hstorage
      (length_stencilFlags hstencil _) (flagOf_le _ stencil)
      (fun index hindex earlier => item_stencilFlags hstencil hindex fun _ => rfl) address

end Outcome

/-- Two lanes for each block, and temporary storage for the counts of two blocks. -/
def scantConfig : LaunchConfig := { threadsPerBlock := 2, multiprocessors := 1, tempLimit := some 16 }

/-- Five numbers need three blocks, and there is no storage for their counts; four numbers need two, and then
the output is too small for the three that are selected. -/
theorem copies_turn_out_scant :
    let call := fun (values : Array Int64) keeps =>
      (copyIf scantConfig Element.int64 ⟨values, 0⟩ #[1, 0, 1, 1, 0] keeps 0 ⟨#[7, 7], .start 5⟩).1
    (∀ selector : Selector Nat, call #[5, 8, 2, 9, 4] selector =
      .error (.error (.allocationFailed 3 8))) ∧
    call #[5, 8, 2, 9] (.ofValue (· == 1)) = .error (.error (.outputTooSmall 3 2)) := by
  intro call
  have hproduct : scantConfig.DerivesLimit := by unfold LaunchConfig.DerivesLimit; decide
  have hlimit : scantConfig.blockLimit = .ok 10 := by
    unfold LaunchConfig.blockLimit
    rw [Word.mul_eq_ok hproduct]
    rfl
  have hturn := fun (values : Array Int64) (hlength : values.size < Word.allocationLimit) =>
    @copies_turn_out Int64 Nat (.ofConfig scantConfig) scantConfig Element.int64 ⟨values, 0⟩
      ⟨#[7, 7], .start 5⟩ hproduct hlength (by decide) (fun value => ⟨value, rfl⟩)
      scantConfig.scheduling.perm_order scantConfig.scheduling.perm_order #[1, 0, 1, 1, 0] (· == 1) 0
  refine ⟨fun selector => ?_, ?_⟩
  · have hfirst : firstAnswer? scantConfig (⟨#[5, 8, 2, 9, 4], 0⟩ : Placed Int64).length
        #[1, 0, 1, 1, 0].size 10 = some (.error (.allocationFailed 3 8)) := by decide
    obtain ⟨limit, hblocks, hfive⟩ := hturn #[5, 8, 2, 9, 4] (by decide)
    obtain rfl := Except.ok.inj (hlimit.symm.trans hblocks)
    rw [hfirst] at hfive
    obtain ⟨_, hanswer, _⟩ := hfive selector
    exact congrArg Prod.fst hanswer
  · have hfirst : firstAnswer? scantConfig (⟨#[5, 8, 2, 9], 0⟩ : Placed Int64).length
        #[1, 0, 1, 1, 0].size 10 = none := by decide
    obtain ⟨limit, hblocks, hfour⟩ := hturn #[5, 8, 2, 9] (by decide)
    obtain rfl := Except.ok.inj (hlimit.symm.trans hblocks)
    rw [hfirst] at hfour
    exact hfour.answers

end Compaction

end BlockMachine
