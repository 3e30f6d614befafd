import BlockMachine.Proofs.Compaction.Masks
import BlockMachine.Proofs.Compaction.Outcome
import BlockMachine.Proofs.Reduction.CheckedSums

/-!
# Dense lists

The list of the elements with a set bit is made as long as there are such bits before any element is looked at,
and the compaction that fills it counts them for itself.  The two numbers are the same.

* `Element.Holds` — an array holds copies of certain values and nothing else.
* `Compaction.filled_eq` — the list at first.
* `Compaction.Arrives.holds` — a compaction into an output of just the right size fills it.
* `Compaction.Extracts` — when the dense list is refused, and what it holds otherwise.
* `Compaction.dense_lists_hold` — so it is for all masks and configurations.
-/

set_option autoImplicit false

namespace BlockMachine

open Request BlockScan

variable {α σ : Type}

/-- An array holds copies of certain values, byte for byte, and nothing else. -/
structure Element.Holds (element : Element α) (values : List α) (dense : Array α) : Prop where
  size : dense.size = values.length
  copies : ∀ (slot : Nat) (value : α), values[slot]? = some value → ∀ place < element.size,
    ∃ copy, element.IsCopy value copy ∧ element.content dense slot place = some (element.pieceOf copy place)
  /-- If the clones of the values are equal to them, so is the array. -/
  exact : (∀ value ∈ values, element.clone value = .ok value) → dense.toList = values

/-- **Requests that write copies of some values into a store of that size** leave nothing else in it. -/
theorem Store.holds_after {element : Element α} {values : List α} {requests : List (Request σ α)}
    (hzero : element.size = 0 → ∀ a b : α, a = b) (h : Writes element 0 values requests)
    (store : Store α) (hsize : store.output.size = values.length) :
    element.Holds values (store.after element requests).output := by
  refine ⟨(Store.size_after ..).trans hsize, fun slot value hvalue place hplace => ?_, fun hclone => ?_⟩
  · obtain ⟨copy, hcopy, hpieces⟩ := h.inside slot value hvalue place hplace
    have hslot : slot < store.output.size := hsize ▸ (List.getElem?_eq_some_iff.mp hvalue).1
    rw [Nat.zero_add] at hpieces
    refine ⟨copy, hcopy, ?_⟩
    rw [Store.content_after element store requests hplace, hpieces, Element.content,
      Array.getElem?_eq_getElem hslot]
    rfl
  · have houtput := Store.output_after_pieces hzero (fun slot value hvalue place hplace => ?_) h.outside store
      (by omega)
    · rw [houtput, List.take_zero, List.nil_append, List.drop_eq_nil_of_le (by simp [hsize]),
        List.append_nil]
    · obtain ⟨copy, hcopy, hpieces⟩ := h.inside slot value hvalue place hplace
      obtain rfl : copy = value := by
        rcases hcopy with rfl | hcopy
        · rfl
        · rw [hclone value (List.mem_of_getElem? hvalue)] at hcopy
          exact (Except.ok.inj hcopy).symm
      exact hpieces

namespace Compaction

/-- **A new list is filled** if its blank can be cloned. -/
theorem filled_eq {element : Element α} {blank copy : α} (hclone : element.clone blank = .ok copy)
    (length : Nat) (journal : Journal) : ∃ dense after,
      filled element blank length journal = (.ok dense, after) ∧ dense.size = length := by
  unfold filled
  by_cases hone : length ≤ 1
  · rw [if_pos hone]
    exact ⟨_, _, rfl, Array.size_replicate ..⟩
  · rw [if_neg hone, hclone]
    refine ⟨_, _, rfl, ?_⟩
    rw [Array.size_push, Array.size_replicate]
    omega

/-! ## Compactions into an output of the right size -/

section Flags

variable {orders : Orders} {config : LaunchConfig} {element : Element α} {input : Placed α}
  {flags : View Nat} {items : Nat → Nat} {address : Nat} {before store : Store α} {task : Task α}

/-- **A compaction into an output of just the right size fills it**, and each run of its writing launch leaves the
same. -/
theorem Arrives.holds (h : Arrives orders config element input flags address before task store)
    (hlength : input.length < Word.allocationLimit)
    (hbytes : before.output.size * element.size < Word.limit)
    (hzero : element.size = 0 → ∀ a b : α, a = b)
    (hclone : ∀ value, ∃ copy, element.clone value = .ok copy)
    (hcounting : ∀ blocks, (orders.counting blocks).Perm (List.range blocks))
    (hwriting : ∀ blocks, (orders.writing blocks).Perm (List.range blocks))
    (hitems : ∀ index, items index ≤ 1)
    (hgives : ∀ index < input.length, ∀ earlier, flags.item index earlier = .ok (items index))
    (hsize : before.output.size = total items input.length) :
    element.Holds (selected items input.values 0 input.length)
        (compactFlags orders config element input flags address before).2.output ∧
      ∀ scheduling places,
        (Grid.run scheduling (kernel flags task) (config.geometry task.cut.count) store places).isOver = true →
          (Grid.run scheduling (kernel flags task) (config.geometry task.cut.count) store
            places).store.output = (compactFlags orders config element input flags address before).2.output := by
  obtain rfl : task.element = element := by rw [h.same]
  obtain rfl : task.input = input := by rw [h.same]
  obtain ⟨prepared, _⟩ := h.prepared hlength hbytes hclone hcounting hitems
    fun index hindex => hgives index hindex _
  obtain ⟨plan, hmoves, hlaunch⟩ := prepared.launchInOrder_eq hitems
    (fun index hindex => hgives index (prepared.covers ▸ hindex) _) prepared.fits
  have hwrites := (prepared.writes hmoves).perm ((hwriting task.cut.count).flatMap_right plan.requests).symm
  have hkept : (selected items task.input.values 0 task.input.length).length =
      total items task.input.length := length_selected_zero hitems (Nat.le_refl _)
  rw [h.compactFlags_eq, hlaunch orders.writing (hwriting _)]
  refine ⟨Store.holds_after hzero hwrites (store.launched config task.cut.count) ?_,
    fun scheduling places hover => ?_⟩
  · show store.output.size = _
    rw [h.output, hsize, hkept]
  · have hfollows := Grid.follows_run plan rfl scheduling places
    have hperm := (hfollows.of_isOver hmoves.ends hover).2.2
    rw [Grid.run_store]
    refine (Store.output_after_perm hzero (hperm.trans
      ((hwriting task.cut.count).flatMap_right plan.requests).symm) (fun slot place hplace => ?_) rfl)
    rw [(pieces_perm task.element slot place hperm).length_eq]
    refine ((prepared.writes hmoves).length_pieces hplace).trans_le ?_
    split <;> omega

end Flags

/-! ## Dense lists -/

/-- The bits of a mask are the flags of its bits as a stencil. -/
theorem flagOf_bits (mask : Mask) : flagOf (fun _ => id) mask.toList.toArray = bitFlag mask := by
  funext index
  by_cases hindex : index < mask.length
  · have hvalue : mask.toList.toArray[index]? = some (mask.bit index) := by
      rw [List.getElem?_toArray, Mask.toList, List.getElem?_map, List.getElem?_range hindex]
      rfl
    rw [flagOf_of_some hvalue, bitFlag]
    rfl
  · have hnone : mask.toList.toArray[index]? = none := by
      rw [Array.getElem?_eq_none]
      simpa [Mask.toList] using hindex
    have hclear : mask.bit index = false := by simp [Mask.bit, hindex]
    rw [flagOf, hnone, bitFlag, hclear]
    rfl

/-- The values whose bit is set, in their order. -/
def valid (values : Array α) (mask : Mask) : List α := kept id values mask.toList.toArray

theorem selected_bitFlag {input : Placed α} {mask : Mask} (h : input.length ≤ mask.length) :
    selected (bitFlag mask) input.values 0 input.length = valid input.values mask := by
  have hsize : input.values.size ≤ mask.toList.toArray.size := by
    simp only [Mask.toList, List.size_toArray, List.length_map, List.length_range]
    exact h
  rw [← flagOf_bits]
  exact selected_flagOf id hsize

/-- How the launches of a dense list run, whatever turns their lanes take. -/
structure DenseRuns (config : LaunchConfig) (element : Element α) (blank : α) (input : Placed α) (mask : Mask)
    (journal : Journal) : Prop where
  /-- The counting launch leaves for each block the number of its bits that are set. -/
  counting : ∀ cut, Decomposition.forLaunch config input.length = .ok cut → ∀ (before : Store Nat),
    cut.count ≤ before.output.size → ∀ scheduling places,
      Reduction.Settles cut
        ((List.range cut.count).map fun block =>
          total (bitFlag mask) (cut.start (block + 1)) - total (bitFlag mask) (cut.start block)) before
        (Grid.run scheduling (Reduction.kernel 0 Word.add (maskFlags mask input.length) cut before.output.size)
          (config.geometry cut.count) ((Reduction.logged cut before).launched config cut.count)) places
  /-- The writing launch runs well, and leaves the list that is returned. -/
  writing : ∀ blanks after,
    filled element blank (mask.take input.length).countOnes journal = (.ok blanks, after) →
      ∀ task store, Arrives (.ofConfig config) config element input (maskFlags mask input.length) 0
        ⟨blanks, after⟩ task store → ∀ scheduling,
          let run := Grid.run scheduling (kernel (maskFlags mask input.length) task)
            (config.geometry task.cut.count) store
          Grid.RunsWell run ∧ ∀ places, (run places).isOver = true →
            (compactValid config element blank input mask journal).1 = .ok (run places).store.output

/-- When the dense list of the values with a set bit is refused, and what it holds otherwise. -/
structure Extracts (config : LaunchConfig) (element : Element α) (blank : α) (input : Placed α) (mask : Mask)
    (limit : Nat) (journal : Journal) : Prop where
  fails : (∃ failure, (compactValid config element blank input mask journal).1 = .error failure) ↔
    mask.length < input.length ∨ input.length ≠ 0 ∧ (config.validate ≠ .ok () ∨
      Temporary.exceeds config (8 * min ((input.length + config.width - 1) / config.width) limit) = true)
  /-- No other check ever fails, in particular none of the two on its length. -/
  tells : ∀ failure, (compactValid config element blank input mask journal).1 = .error failure →
    ∃ error, firstAnswer? config input.length mask.length limit = some (.error error) ∧
      failure = .error error
  holds : ∀ dense, (compactValid config element blank input mask journal).1 = .ok dense →
    element.Holds (valid input.values mask) dense
  runs : firstAnswer? config input.length mask.length limit = none →
    DenseRuns config element blank input mask journal

/-- One of the first checks of a compaction fails. -/
theorem firstAnswer?_error_iff {config : LaunchConfig} {length stencil limit : Nat} :
    (∃ error, firstAnswer? config length stencil limit = some (.error error)) ↔
      stencil < length ∨ length ≠ 0 ∧ (config.validate ≠ .ok () ∨
        Temporary.exceeds config (8 * min ((length + config.width - 1) / config.width) limit) = true) := by
  unfold firstAnswer?
  by_cases hshort : stencil < length
  · simp [hshort]
  by_cases hempty : length = 0
  · simp [hempty]
  cases hvalid : config.validate with
  | error problem => simp [hshort, hempty]
  | ok _ =>
    by_cases hexceeds :
        Temporary.exceeds config (8 * min ((length + config.width - 1) / config.width) limit) = true
    · simp [hshort, hempty, hexceeds]
    · simp [hshort, hempty, hexceeds]

/-- If one of the first checks does not fail but decides, then there is no element. -/
theorem firstAnswer?_ok {config : LaunchConfig} {length stencil limit count : Nat}
    (h : firstAnswer? config length stencil limit = some (.ok count)) : length = 0 ∧ count = 0 := by
  unfold firstAnswer? at h
  split at h
  · cases h
  split at h
  · next hempty => exact ⟨hempty, (Except.ok.inj (Option.some.inj h)).symm⟩
  split at h
  · cases h
  simp only at h
  split at h <;> cases h

/-- A dense list is what the compaction leaves in the new list, if that answers with its length. -/
theorem compactValid_eq {config : LaunchConfig} {element : Element α} {blank : α} {input : Placed α}
    {mask : Mask} {journal after : Journal} {blanks : Array α}
    (hfilled : filled element blank (mask.take input.length).countOnes journal = (.ok blanks, after))
    (hcount : ∀ written, (copyIfMask config element input mask 0 ⟨blanks, after⟩).1 = .ok written →
      written = (mask.take input.length).countOnes) :
    (compactValid config element blank input mask journal).1 =
      (copyIfMask config element input mask 0 ⟨blanks, after⟩).1.map
        fun _ => (copyIfMask config element input mask 0 ⟨blanks, after⟩).2.output := by
  unfold compactValid
  simp only [hfilled]
  cases hcopied : copyIfMask config element input mask 0 ⟨blanks, after⟩ with
  | mk result store =>
    rw [hcopied] at hcount
    cases result with
    | error failure => rfl
    | ok written =>
      simp only
      rw [if_pos (hcount written rfl)]
      rfl

section Dense

variable {config : LaunchConfig} {element : Element α} {blank : α} {input : Placed α} {mask : Mask}
  {limit : Nat} {journal after : Journal} {blanks : Array α}

/-- A dense list that is refused by one of the first checks. -/
theorem Extracts.of_error {error : LibraryError}
    (hfirst : firstAnswer? config input.length mask.length limit = some (.error error))
    (hresult : (compactValid config element blank input mask journal).1 = .error (.error error)) :
    Extracts config element blank input mask limit journal := by
  refine ⟨⟨fun _ => firstAnswer?_error_iff.mp ⟨error, hfirst⟩, fun _ => ⟨_, hresult⟩⟩,
    fun failure hfailure => ⟨error, hfirst, ?_⟩, fun dense hdense => ?_, fun hnone => ?_⟩
  · exact Except.error.inj (hfailure.symm.trans hresult)
  · rw [hresult] at hdense
    cases hdense
  · rw [hfirst] at hnone
    cases hnone

/-- A dense list that passes them. -/
theorem Extracts.of_ok {dense : Array α}
    (hfirst : ∀ error, firstAnswer? config input.length mask.length limit ≠ some (.error error))
    (hresult : (compactValid config element blank input mask journal).1 = .ok dense)
    (hholds : element.Holds (valid input.values mask) dense)
    (hruns : firstAnswer? config input.length mask.length limit = none →
      DenseRuns config element blank input mask journal) :
    Extracts config element blank input mask limit journal := by
  refine ⟨⟨fun ⟨failure, hfails⟩ => ?_, fun hrefused => ?_⟩, fun failure hfails => ?_,
    fun other hother => ?_, hruns⟩
  · rw [hresult] at hfails
    cases hfails
  · obtain ⟨error, herror⟩ := firstAnswer?_error_iff.mpr hrefused
    exact absurd herror (hfirst error)
  · rw [hresult] at hfails
    cases hfails
  · obtain rfl := Except.ok.inj (hresult.symm.trans hother)
    exact hholds

/-- The dense list of no values. -/
theorem valid_of_empty (hempty : input.length = 0) : valid input.values mask = [] := by
  have hsize : input.values = #[] := Array.size_eq_zero_iff.mp hempty
  rw [valid, kept, hsize]
  rfl

/-- If one of the first checks decides, then it says what becomes of the list. -/
theorem extracts_of_firstAnswer? (hlimit : config.blockLimit = .ok limit)
    (hfilled : filled element blank (mask.take input.length).countOnes journal = (.ok blanks, after))
    (hsize : blanks.size = (mask.take input.length).countOnes) {answer : Except LibraryError Nat}
    (hfirst : firstAnswer? config input.length mask.length limit = some answer) :
    Extracts config element blank input mask limit journal := by
  obtain ⟨last, hcopied, huntouched⟩ := copyIfInOrder_of_firstAnswer? hlimit
    ((size_unpacked mask).symm ▸ hfirst : firstAnswer? _ _ mask.unpacked.toArray.size _ = _)
    (.ofConfig config) element (.ofValue id) 0 ⟨blanks, after⟩
  have hmasked := (copyIfMask_eq_copyIf config element input mask 0 ⟨blanks, after⟩).trans hcopied
  cases answer with
  | error error =>
    refine .of_error hfirst ?_
    rw [compactValid_eq hfilled (by rw [hmasked]; exact nofun), hmasked]
    rfl
  | ok count =>
    obtain ⟨hempty, rfl⟩ := firstAnswer?_ok hfirst
    have hnone : (mask.take input.length).countOnes = 0 := by
      rw [countOnes_take mask (by omega), hempty, total_zero]
    have hresult : (compactValid config element blank input mask journal).1 = .ok blanks := by
      rw [compactValid_eq hfilled, hmasked, huntouched.output]
      · rfl
      · rw [hmasked, hnone]
        exact fun written hwritten => (Except.ok.inj hwritten).symm
    refine .of_ok (fun error herror => ?_) hresult ?_ fun hundecided => ?_
    · rw [hfirst] at herror
      cases herror
    · obtain rfl : blanks = #[] := Array.size_eq_zero_iff.mp (hsize.trans hnone)
      rw [valid_of_empty hempty]
      exact ⟨rfl, fun _ _ hvalue => absurd (List.mem_of_getElem? hvalue) List.not_mem_nil, fun _ => rfl⟩
    · rw [hfirst] at hundecided
      cases hundecided

variable (hproduct : config.DerivesLimit)
  -- a slice of bits has fewer than a word can count, and a slice of values fewer bytes
  (hmask : mask.length < Word.allocationLimit) (hbytes : input.length * element.size < Word.limit)
  (hzero : element.size = 0 → ∀ a b : α, a = b)
  (hclone : ∀ value, ∃ copy, element.clone value = .ok copy)

include hproduct hmask hbytes hzero hclone

/-- Otherwise the two counts of set bits are the same, and the list is filled. -/
theorem extracts_of_undecided (hlimit : config.blockLimit = .ok limit)
    (hfilled : filled element blank (mask.take input.length).countOnes journal = (.ok blanks, after))
    (hsize : blanks.size = (mask.take input.length).countOnes)
    (hfirst : firstAnswer? config input.length mask.length limit = none) :
    Extracts config element blank input mask limit journal := by
  have hlimits : Word.allocationLimit < Word.limit := by decide
  obtain ⟨hle, hempty, hvalid, hstorage⟩ := of_firstAnswer?_none hlimit
    ((size_unpacked mask).symm ▸ hfirst : firstAnswer? _ _ mask.unpacked.toArray.size _ = _)
  rw [size_unpacked] at hle
  have hlength : input.length < Word.allocationLimit := by omega
  have hgives : ∀ index < input.length, ∀ earlier,
      (maskFlags mask input.length).item index earlier = .ok (bitFlag mask index) := by
    intro index hindex earlier
    unfold maskFlags
    rw [maskFlags_item mask hle, if_pos hindex]
    rfl
  have hcount : (mask.take input.length).countOnes = total (bitFlag mask) input.length :=
    countOnes_take mask hle
  have hroom : blanks.size * element.size < Word.limit := by
    have hself := total_le_self (bitFlag_le mask) input.length
    refine Nat.lt_of_le_of_lt (Nat.mul_le_mul_right _ ?_) hbytes
    omega
  have hcounting : ∀ blocks, ((Orders.ofConfig config).counting blocks).Perm (List.range blocks) :=
    config.scheduling.perm_order
  have hwriting : ∀ blocks, ((Orders.ofConfig config).writing blocks).Perm (List.range blocks) :=
    config.scheduling.perm_order
  have hconcludes : Concludes (.ofConfig config) config element input (maskFlags mask input.length) 0
      (total (bitFlag mask) input.length) ⟨blanks, after⟩ _ :=
    compactFlags_concludes hproduct hlength hroom hclone hcounting hwriting hvalid hempty hstorage
      (Nat.min_eq_left hle) (bitFlag_le mask) hgives 0
  have hanswers := hconcludes.answers
  rw [lastAnswer, if_neg (by show ¬ blanks.size < _; omega)] at hanswers
  -- what the compaction leaves is the list
  have hresult : (compactValid config element blank input mask journal).1 =
      .ok (copyIfMask config element input mask 0 ⟨blanks, after⟩).2.output := by
    rw [compactValid_eq hfilled fun written hwritten => copyIfMask_count (by omega) hwritten,
      copyIfMask_eq config element hle]
    show (compactFlags (.ofConfig config) config element input (maskFlags mask input.length) 0
      ⟨blanks, after⟩).1.map _ = _
    rw [hanswers]
    rfl
  have hfills : ∀ task store, Arrives (.ofConfig config) config element input
      (maskFlags mask input.length) 0 ⟨blanks, after⟩ task store → _ := fun task store harrives =>
    harrives.holds hlength hroom hzero hclone hcounting hwriting (bitFlag_le mask) hgives (hsize.trans hcount)
  obtain ⟨task, store, harrives, _⟩ : ∃ task store, Arrives (.ofConfig config) config element input
      (maskFlags mask input.length) 0 ⟨blanks, after⟩ task store ∧ _ :=
    exists_arrives hvalid hproduct hempty (by omega) (Nat.min_eq_left hle) hstorage hcounting
      (bitFlag_le mask) (fun index hindex => hgives index hindex _) (by show _ ≤ blanks.size; omega) 0
  refine .of_ok (fun error herror => ?_) hresult ?_ fun _ => ⟨fun cut hcut before houtput => ?_, ?_⟩
  · rw [hfirst] at herror
    cases herror
  · rw [← selected_bitFlag hle, copyIfMask_eq config element hle]
    exact (hfills task store harrives).1
  · obtain ⟨hwidth, _⟩ := LaunchConfig.width_of_validate hvalid
    have hcovers := Decomposition.total_forLaunch hcut
    have hself := total_le_self (bitFlag_le mask) cut.total
    exact (Reduction.settles_of_folds 0 hvalid ((Nat.min_eq_left hle).trans hcovers.symm)
      (.of_total (by omega)) houtput (fun index hindex => hgives index (hcovers ▸ hindex) _)
      fun block hblock => Reduction.folds_intervals _ rfl hwidth (by omega) hblock).2
  · intro others later hother task store harrives scheduling
    obtain ⟨hsame, rfl⟩ := Prod.mk.inj (hfilled.symm.trans hother)
    obtain rfl := Except.ok.inj hsame
    refine ⟨hconcludes.writing task store harrives scheduling, fun places hover => ?_⟩
    rw [hresult, copyIfMask_eq config element hle, (hfills task store harrives).2 scheduling places hover]

/-- **Dense lists hold the values whose bit is set**, in their order. -/
theorem dense_lists_hold (blank : α) (journal : Journal) :
    ∃ limit, config.blockLimit = .ok limit ∧ Extracts config element blank input mask limit journal := by
  obtain ⟨limit, hlimit⟩ : ∃ limit, config.blockLimit = .ok limit :=
    ⟨_, by unfold LaunchConfig.blockLimit; rw [Word.mul_eq_ok hproduct]; rfl⟩
  obtain ⟨copy, hcopy⟩ := hclone blank
  obtain ⟨blanks, after, hfilled, hsize⟩ := filled_eq hcopy (mask.take input.length).countOnes journal
  refine ⟨limit, hlimit, ?_⟩
  cases hfirst : firstAnswer? config input.length mask.length limit with
  | some answer => exact extracts_of_firstAnswer? hlimit hfilled hsize hfirst
  | none => exact extracts_of_undecided hproduct hmask hbytes hzero hclone hlimit hfilled hsize hfirst

end Dense

/-- Seven bits from the third one of a byte on: for four values the last three are not looked at, and for five
there is no storage. -/
theorem dense_lists_hold_misaligned :
    let mask : Mask := ⟨#[0b10110100, 0b1], 2, 7, by decide⟩
    let call := fun values : Array Int64 =>
      (compactValid scantConfig Element.int64 0 ⟨values, 0⟩ mask (.start values.size)).1
    call #[5, 8, 2, 9] = .ok #[5, 2, 9] ∧ ∃ failure, call #[5, 8, 2, 9, 4] = .error failure := by
  intro mask call
  have hproduct : scantConfig.DerivesLimit := by unfold LaunchConfig.DerivesLimit; decide
  have hlimit : scantConfig.blockLimit = .ok 10 := by
    unfold LaunchConfig.blockLimit
    rw [Word.mul_eq_ok hproduct]
    rfl
  have hholds : ∀ values : Array Int64, values.size * 8 < Word.limit →
      Extracts scantConfig Element.int64 0 ⟨values, 0⟩ mask 10 (.start values.size) := by
    intro values hbytes
    obtain ⟨limit, hblocks, hextracts⟩ := @dense_lists_hold Int64 scantConfig Element.int64 ⟨values, 0⟩ mask
      hproduct (by decide) hbytes nofun (fun value => ⟨value, rfl⟩) 0 (.start values.size)
    obtain rfl := Except.ok.inj (hlimit.symm.trans hblocks)
    exact hextracts
  refine ⟨?_, (hholds #[5, 8, 2, 9, 4] (by decide)).fails.mpr (.inr ⟨by decide, .inr (by decide)⟩)⟩
  have hfour := hholds #[5, 8, 2, 9] (by decide)
  cases hresult : call #[5, 8, 2, 9] with
  | error failure =>
    rcases hfour.fails.mp ⟨failure, hresult⟩ with hshort | ⟨_, hinvalid | hexceeds⟩
    · exact absurd hshort (by decide)
    · exact absurd rfl hinvalid
    · exact absurd hexceeds (by decide)
  | ok dense =>
    have hdense := (hfour.holds dense hresult).exact fun _ _ => rfl
    exact congrArg Except.ok (Array.toList_inj.mp (hdense.trans (by decide)))

end Compaction

end BlockMachine
