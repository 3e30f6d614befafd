import BlockMachine.Proofs.Compaction.FullChunks
import BlockMachine.Proofs.Compaction.Outcome
import BlockMachine.Proofs.Compaction.PredicateFaults

/-!
# When a compaction copies whole chunks

A compaction that succeeds moves each dense chunk as a whole, and no others.

* `Compaction.records_of_offsets` — the counting launch logs no block copy.
* `Compaction.Arrives.exists_plan_answered` — in a compaction that succeeds no clone panics.
* `Compaction.CopiesDense` — one block copy for each dense chunk, its way, and what it moves.
* `Compaction.dense_chunks_copied` — so it is for every compaction that succeeds, whatever turns its lanes take,
  if no clone raises a release signal.
* `Compaction.released_chunk_not_copied` — otherwise a copy can be missing.
-/

set_option autoImplicit false

namespace BlockMachine

open Request BlockScan

variable {α S : Type}

theorem Store.records_launched (store : Store α) (config : LaunchConfig) (blocks : Nat) :
    (store.launched config blocks).journal.records.toList = store.journal.records.toList ++
      [.launch blocks config.width config.scheduling config.capability] := by
  simp [launched, Journal.note]

namespace Compaction

/-! ## The counting launch -/

variable {config : LaunchConfig} {flags : View Nat} {items : Nat → Nat}

/-- **The counting launch logs that it begins**, and nothing else. -/
theorem records_of_offsets {length : Nat} {order : Nat → List Nat} {cut : Decomposition}
    {found : Array Nat} {journal journal' : Journal} (hvalid : config.validate = .ok ())
    (hempty : length ≠ 0) (hcut : Decomposition.forLaunch config length = .ok cut)
    (hlength : length + 1 < Word.limit) (hflags : flags.length = length)
    (horder : ∀ blocks, (order blocks).Perm (List.range blocks)) (hitems : ∀ index, items index ≤ 1)
    (hgives : ∀ index < length, flags.item index (journal.calls[index]?.getD 0) = .ok (items index))
    (h : offsets order config flags cut journal = (.ok found, journal')) :
    journal'.records.toList = journal.records.toList ++
      [.reduction cut.total cut.count, .launch cut.count config.width config.scheduling config.capability] := by
  obtain ⟨hcovers, hcount⟩ := Decomposition.of_forLaunch hvalid (Nat.pos_of_ne_zero hempty) hcut
  obtain ⟨hwidth, _⟩ := LaunchConfig.width_of_validate hvalid
  have hsum := total_le_self hitems cut.total
  obtain ⟨counts, early, after, hgranted, hreduced, rfl⟩ := exists_counts h
  have hsize := Temporary.size_of_allocate hgranted
  obtain ⟨hbytes, hlimit⟩ := Temporary.within_of_allocate hgranted
  rw [Temporary.allocate_eq hbytes hlimit] at hgranted
  obtain ⟨_, rfl⟩ := Prod.mk.inj hgranted
  rw [← hcovers] at hgives
  obtain ⟨plan, hdoes⟩ := Reduction.exists_plan_of_withinWord 0 hvalid (.of_total (by omega))
    (Nat.le_of_eq hsize.symm) hgives fun block hblock =>
      Reduction.folds_intervals ⟨flags.item, Word.add, Element.cloned 1⟩ rfl hwidth (by omega) hblock
  have hends : ∀ block < cut.count, Block.EndWell config.width (plan.stops block) :=
    fun block hblock lane _ => ⟨(), (hdoes block hblock).ends lane⟩
  have hcalls : (Reduction.logged cut ⟨counts, journal⟩).journal.calls = journal.calls := rfl
  have hlaunch := plan.launchInOrder_eq hvalid hcount (horder _) hcalls hends
  -- no lane of a reduction logs anything
  have hnone : ((order cut.count).flatMap plan.requests).filterMap noted? = [] := by
    refine List.filterMap_eq_nil_iff.mpr fun request hr => ?_
    obtain ⟨block, hblock, hr⟩ := List.mem_flatMap.mp hr
    obtain ⟨stage, hstage, hr⟩ := plan.mem_requests.mp hr
    have hlt : block < cut.count := List.mem_range.mp ((horder _).mem_iff.mp hblock)
    have honly : ∀ lane < config.width, (Reduction.program cut (.whole 0 1 counts.size)
        ((config.geometry cut.count).context block lane)).Only
          fun request : Request Nat Nat => request.noted? = none :=
      fun lane _ => Reduction.only_program (fun _ hlocal => hlocal.noted?_eq) (fun _ _ => rfl)
        (fun _ _ => rfl) _ _
    exact (plan.runs block hlt).only honly stage hstage request hr
  rw [Reduction.reduceInOrder_eq order config 0 Word.add (hflags.trans hcovers.symm) hcount
    (Nat.le_of_eq hsize.symm)] at hreduced
  obtain ⟨_, rfl⟩ := Prod.mk.inj (hreduced.symm.trans hlaunch)
  rw [Store.records_after, hnone, List.append_nil, Store.records_launched]
  simp [Reduction.logged, Journal.note]

/-! ## The writing launch -/

theorem records_report (selected total blocks : Nat) (journal : Journal) :
    (report selected total blocks journal).records.toList =
      journal.records.toList ++ (report selected total blocks {}).records.toList := by
  simp [report, Journal.note]

section Arrives

variable {orders : Orders} {element : Element α} {input : Placed α} {address : Nat}
  {before store : Store α} {task : Task α}

/-- **In a compaction that succeeds no clone panics**: its blocks do what they would do if no clone could. -/
theorem Arrives.exists_plan_answered (h : Arrives orders config element input flags address before task store)
    (hlength : input.length < Word.allocationLimit)
    (hbytes : before.output.size * element.size < Word.limit)
    (hcounting : ∀ blocks, (orders.counting blocks).Perm (List.range blocks))
    (hwriting : config.scheduling.Admits orders.writing) (hitems : ∀ index, items index ≤ 1)
    (hgives : ∀ index < input.length, ∀ earlier, flags.item index earlier = .ok (items index))
    (hspeaks : ∀ value ∈ selected items input.values 0 input.length, ∀ panic,
      element.clone value = .error panic → panic.isRelease = false)
    {count : Nat} (hok : (compactFlags orders config element input flags address before).1 = .ok count) :
    Prepared config task.patched items ∧
      ∃ plan : Plan (kernel flags task) (config.geometry task.cut.count) store.journal.calls,
        ∀ block < task.cut.count, Block.EndWell config.width (plan.stops block) ∧
          TakesChunks task.patched items (config.geometry task.cut.count) block (task.cut.start block)
            (task.cut.start (block + 1)) (plan.stages block) ∧
          ∀ stage ∈ plan.stages block, stage.Answered (refusal task.element) config.width := by
  obtain rfl : task.element = element := by rw [h.same]
  obtain rfl : task.input = input := by rw [h.same]
  obtain ⟨prepared, _⟩ := h.patched.prepared hlength hbytes task.element.exists_clone_patched hcounting hitems
    fun index hindex => hgives index hindex _
  have hcovers : task.cut.total = task.input.length := prepared.covers
  have hfits := prepared.fits
  obtain ⟨usual, houtcome⟩ := prepared.exists_plan flags prepared.flags
    fun index hindex => hgives index (hcovers ▸ hindex) (store.journal.calls[index]?.getD 0)
  have hplan := usual.exists_brokenOff (kernel_refuses task flags) fun block hblock =>
    (houtcome block hblock).ends (hfits block hblock)
  rw [kernel_patched] at hplan
  obtain ⟨plan, hbroken⟩ := hplan
  have hbreakable : plan.Breakable := by
    refine ⟨fun block hblock => (hbroken block hblock).ends, fun block hblock lane hlane panic hpanic => ?_⟩
    obtain ⟨request, hr, hrefusal⟩ := (hbroken block hblock).refused hlane hpanic
    cases request with
    | clone value =>
      have hmem := (houtcome block hblock).clones _ hr value rfl
      obtain ⟨index, hle, hlt, hitem, hvalue⟩ := mem_selected.mp hmem
      have hindex : index < task.input.length := (Array.getElem?_eq_some_iff.mp hvalue).1
      exact hspeaks value (mem_selected.mpr ⟨index, Nat.zero_le _, by omega, hitem, hvalue⟩) panic
        (Panic.of?_eq_some.mp hrefusal)
    | _ => cases hrefusal
  refine ⟨prepared, plan, fun block hblock => ?_⟩
  have hnot : ¬ Block.Breaks config.width (plan.stops block) := by
    intro hbreaks
    obtain ⟨_, _, _, _, hfails, _⟩ := Plan.launchInOrder_breaks hbreakable h.valid prepared.count
      (hwriting.perm _) (hwriting.kept.imp_right fun hkept => hkept _) rfl ⟨block, hblock, hbreaks⟩
    have hlaunch : launchInOrder orders.writing config (kernel flags task) task.cut.count config.width store =
      _ := hfails
    rw [h.compactFlags_eq, hlaunch] at hok
    cases hok
  obtain ⟨hstages, hanswered, hends⟩ := (hbroken block hblock).of_not_breaks hnot
  rw [hstages]
  exact ⟨hends, (houtcome block hblock).turns rfl (hfits block hblock), hanswered⟩

end Arrives

/-- What a compaction that succeeds logs and moves. -/
structure CopiesDense (orders : Orders) (config : LaunchConfig) (element : Element α) (input : Placed α)
    (flags : View Nat) (items : Nat → Nat) (address : Nat) (before : Store α) (task : Task α) (store : Store α)
    (result : Except Failure Nat × Store α) : Prop where
  /-- It comes to its writing launch. -/
  arrives : Arrives orders config element input flags address before task store
  /-- The dense chunks of a block are the full ones, counted from the start of its interval, all of whose elements
  are selected. -/
  dense : ∀ block < task.cut.count, (denseChunks task.cut items config.width block).Nodup ∧
    ∀ base, base ∈ denseChunks task.cut items config.width block ↔
      (∃ turn, base = task.cut.start block + turn * config.width) ∧
        base + config.width ≤ task.cut.start (block + 1) ∧
        ∀ lane < config.width, items (base + lane) ≠ 0
  /-- Between the beginning of its two launches and its report it logs one block copy for each of them. -/
  records : result.2.journal.records.toList = before.journal.records.toList ++
    [.reduction task.cut.total task.cut.count,
      .launch task.cut.count config.width config.scheduling config.capability,
      .launch task.cut.count config.width config.scheduling config.capability] ++
    ((orders.writing task.cut.count).flatMap fun block =>
      (denseChunks task.cut items config.width block).flatMap fun base =>
        [.bulkCopy (chunkCopy task items (config.geometry task.cut.count) block base)]) ++
    (report (total items input.length) input.length task.cut.count {}).records.toList
  /-- The writing launch runs well whatever turns its lanes take, -/
  runs : ∀ scheduling, Grid.RunsWell
    (Grid.run scheduling (kernel flags task) (config.geometry task.cut.count) store)
  /-- and its lanes then have moved each dense chunk as a whole once, and everything else element by element. -/
  copies : ∀ scheduling places, (Grid.run scheduling (kernel flags task) (config.geometry task.cut.count) store
      places).isOver = true → ∃ rest,
    (Deed.requests (Grid.log scheduling (kernel flags task) (config.geometry task.cut.count) store places)).Perm
      (rest ++ (List.range task.cut.count).flatMap fun block =>
        (denseChunks task.cut items config.width block).flatMap
          (chunkRequests task items (config.geometry task.cut.count) block)) ∧
      ∀ request ∈ rest, Single request
  /-- A dense chunk is moved to the slots behind all elements that are selected before it. -/
  moves : ∀ block < task.cut.count, ∀ base ∈ denseChunks task.cut items config.width block,
    Writes element (total items base) (input.values.extract base (base + config.width)).toList
      (chunkRequests task items (config.geometry task.cut.count) block base)
  /-- The way of a copy hangs on the type, on the level and on the two addresses. -/
  ways : ∀ block base,
    let copy := chunkCopy task items (config.geometry task.cut.count) block base
    copy.source = input.address + base * element.size ∧
      copy.target = address + total items base * element.size ∧
      (copy.path = .wide ↔ element.isTrivial = true ∧ 2 ≤ config.capability.major.toNat ∧
        copy.source % 8 = 0 ∧ copy.target % 8 = 0) ∧
      (copy.path = .bytewise ↔ element.isTrivial = true ∧ 2 ≤ config.capability.major.toNat ∧
        ¬ (copy.source % 8 = 0 ∧ copy.target % 8 = 0)) ∧
      (copy.path = .elementwise ↔ ¬ (element.isTrivial = true ∧ 2 ≤ config.capability.major.toNat))

section Compaction

variable {orders : Orders} {element : Element α} {input : Placed α} {before : Store α}
  (hlength : input.length < Word.allocationLimit)
  -- an output of more bytes would be larger than all memory
  (hbytes : before.output.size * element.size < Word.limit)
  (hcounting : ∀ blocks, (orders.counting blocks).Perm (List.range blocks))
  (hwriting : config.scheduling.Admits orders.writing)

include hlength hbytes hcounting hwriting

/-- **A compaction that comes to its writing launch and succeeds copies its dense chunks as a whole.** -/
theorem Arrives.copiesDense {address : Nat} {task : Task α} {store : Store α}
    (h : Arrives orders config element input flags address before task store)
    (hitems : ∀ index, items index ≤ 1)
    (hgives : ∀ index < input.length, ∀ earlier, flags.item index earlier = .ok (items index))
    (hspeaks : ∀ value ∈ selected items input.values 0 input.length, ∀ panic,
      element.clone value = .error panic → panic.isRelease = false)
    {count : Nat} (hok : (compactFlags orders config element input flags address before).1 = .ok count) :
    CopiesDense orders config element input flags items address before task store
      (compactFlags orders config element input flags address before) := by
  obtain rfl : task.element = element := by rw [h.same]
  obtain rfl : task.input = input := by rw [h.same]
  obtain ⟨prepared, plan, hplan⟩ :=
    h.exists_plan_answered hlength hbytes hcounting hwriting hitems hgives hspeaks hok
  obtain ⟨hwidth, _⟩ := LaunchConfig.width_of_validate h.valid
  have hlimits : Word.allocationLimit < Word.limit := by decide
  have hthreads : 0 < (config.geometry task.cut.count).threads := hwidth
  have houtput : task.output = .whole task.output.address task.element.size task.output.length :=
    prepared.output
  have hcovers : task.cut.total = task.input.length := prepared.covers
  have hends : ∀ block < task.cut.count, Block.EndWell config.width (plan.stops block) :=
    fun block hblock => (hplan block hblock).1
  refine ⟨h, fun block _ => ⟨nodup_denseChunks hwidth, fun base => mem_denseChunks hwidth⟩, ?_,
    fun scheduling => plan.runsWell hends scheduling, fun scheduling places hover => ?_,
    fun block hblock base hbase => ?_, fun block base => ?_⟩
  · have hselected : task.offsets.back?.getD 0 = total items task.input.length := by
      have hoffsets : task.offsets = ends task.cut items := prepared.offsets
      have hcount : 0 < task.cut.count := prepared.count
      rw [hoffsets, back?_ends hcount, hcovers]
    have hlaunch := plan.launchInOrder_eq h.valid prepared.count (hwriting.perm _) rfl hends
    have hblocks : ((orders.writing task.cut.count).flatMap plan.requests).filterMap noted? =
        (orders.writing task.cut.count).flatMap fun block =>
          (denseChunks task.cut items config.width block).flatMap fun base =>
            [.bulkCopy (chunkCopy task items (config.geometry task.cut.count) block base)] := by
      rw [List.filterMap_flatMap]
      refine List.flatMap_congr fun block hblock => ?_
      obtain ⟨_, hchunks, hanswered⟩ := hplan block (List.mem_range.mp ((hwriting.perm _).mem_iff.mp hblock))
      exact hchunks.filterMap_noted? hitems hthreads hanswered houtput
    have hcounted := records_of_offsets h.valid h.nonempty h.cut (by omega) h.length hcounting hitems
      (fun index hindex => hgives index hindex _) h.offsets
    rw [h.compactFlags_eq, hlaunch]
    simp only [reported]
    rw [records_report, Store.records_after, Store.records_launched, hcounted, hblocks, hselected]
    simp only [List.append_assoc, List.cons_append, List.nil_append]
  · have hfollows := Grid.follows_run plan rfl scheduling places
    have hperm := (hfollows.of_isOver hends hover).2.2
    have hall : ∀ block, ∃ rest, block < task.cut.count → (plan.requests block).Perm
        (rest ++ (denseChunks task.cut items config.width block).flatMap
          (chunkRequests task items (config.geometry task.cut.count) block)) ∧
        ∀ request ∈ rest, Single request := by
      intro block
      by_cases hblock : block < task.cut.count
      · obtain ⟨_, hchunks, hanswered⟩ := hplan block hblock
        obtain ⟨rest, hrest⟩ := hchunks.exists_perm hitems hthreads hanswered
        exact ⟨rest, fun _ => hrest⟩
      · exact ⟨[], fun hlt => absurd hlt hblock⟩
    choose rest hrest using hall
    refine ⟨(List.range task.cut.count).flatMap rest, hperm.trans ((List.Perm.flatMap_left _
      fun block hblock => (hrest block (List.mem_range.mp hblock)).1).trans (perm_flatMap_append ..)),
      fun request hr => ?_⟩
    obtain ⟨block, hblock, hr⟩ := List.mem_flatMap.mp hr
    exact (hrest block (List.mem_range.mp hblock)).2 request hr
  · obtain ⟨_, hchunks, hanswered⟩ := hplan block hblock
    obtain ⟨rest, hperm, _⟩ := hchunks.exists_perm hitems hthreads hanswered
    refine writes_chunkRequests hthreads houtput fun hpath value hvalue => ?_
    have hmem := hperm.mem_iff.mpr (List.mem_append_right rest (List.mem_flatMap.mpr
      ⟨base, hbase, clone_mem_chunkRequests hthreads houtput hpath hvalue⟩))
    obtain ⟨stage, hstage, hr⟩ := List.mem_flatMap.mp hmem
    obtain ⟨lane, hlane, hr⟩ := Stage.mem_all.mp hr
    have hreturns := hanswered stage hstage lane hlane _ hr
    cases hclone : task.element.clone value with
    | ok copy => exact ⟨copy, rfl⟩
    | error panic =>
      rw [refusal, hclone] at hreturns
      cases hreturns
  · have haddress : task.output.address = address := by
      rw [h.same]
      rfl
    have hwide : (config.geometry task.cut.count).wideCopy = true ↔ 2 ≤ config.capability.major.toNat :=
      config.capability.supportsWideCopy_iff
    simp only [chunkCopy, haddress, true_and]
    refine ⟨?_, ?_, ?_⟩
    · rw [BlockCopy.choosePath_eq_wide, hwide]
    · rw [BlockCopy.choosePath_eq_bytewise, hwide]
    · rw [BlockCopy.choosePath_eq_elementwise, hwide]

/-- **A compaction that succeeds copies each dense chunk as a whole, and no others**, if its predicate looks at
the stencil value alone and no clone of an element that is kept raises the release signal of a barrier.  The
flags are those of the predicate, so that `total items base` elements are selected before number `base`. -/
theorem dense_chunks_copied (stencil : Array S) (keeps : S → Bool) (address : Nat)
    (hspeaks : ∀ value ∈ kept keeps input.values stencil, ∀ panic, element.clone value = .error panic →
      panic.isRelease = false) {count : Nat}
    (hok : (copyIfInOrder orders config element input stencil (.ofValue keeps) address before).1 = .ok count) :
    let result := copyIfInOrder orders config element input stencil (.ofValue keeps) address before
    (input.length = 0 → result.2 = before) ∧
    (input.length ≠ 0 → ∃ task store, CopiesDense orders config element input
      (stencilFlags stencil (.ofValue keeps) input.length) (flagOf (fun _ => keeps) stencil) address before
      task store result) := by
  intro result
  have hstencil : input.length ≤ stencil.size := by
    by_contra hshort
    rw [copyIfInOrder_def, if_pos (Nat.lt_of_not_le hshort)] at hok
    cases hok
  have hresult : result = compactFlags orders config element input
      (stencilFlags stencil (.ofValue keeps) input.length) address before :=
    copyIfInOrder_eq orders config element hstencil _ address before
  refine ⟨fun hempty => ?_, fun hempty => ?_⟩
  · rw [hresult, compactFlags_of_empty hempty]
  · have hanswer : result.1 = .ok count := hok
    rw [hresult] at hanswer ⊢
    rw [← selected_flagOf keeps hstencil] at hspeaks
    rcases arrives_or_fails orders config element (stencilFlags stencil (.ofValue keeps) input.length) address
      before hempty with ⟨task, store, harrives⟩ | ⟨failure, journal, hfails, _⟩
    · exact ⟨task, store, harrives.copiesDense hlength hbytes hcounting hwriting (flagOf_le _ stencil)
        (fun index hindex earlier => item_stencilFlags hstencil hindex fun _ => rfl) hspeaks hanswer⟩
    · rw [hfails] at hanswer
      cases hanswer

end Compaction

/-- **Without that condition a copy can be missing**: the clone of the first of two selected elements releases its
lane, so that the chunk of the second is never reached, and the compaction answers with both of them although
nothing is moved. -/
theorem released_chunk_not_copied :
    let config : LaunchConfig := { threadsPerBlock := 1, multiprocessors := 1, maxBlocks := some 1 }
    let releasing : Element Nat := ⟨8, none, fun _ => .error (.raised .barrierPoisoned)⟩
    let result := copyIf config releasing ⟨#[7, 8], 0⟩ #[1, 1] (.ofValue (· == (1 : Nat))) 0 ⟨#[0, 0], .start 2⟩
    result.1 = .ok 2 ∧ result.2.output = #[0, 0] ∧ (result.2.journal.records.toList.drop 3).take 1 =
      [.bulkCopy ⟨0, 1, .elementwise, 0, 0⟩] ∧ result.2.journal.records.size = 6 := by
  decide +kernel

/-! ## Three dense chunks of elements of four bytes -/

/-- Eight elements of four bytes, and room for as many. -/
def quads : Placed (Vector UInt8 4) := ⟨Array.replicate 8 (Vector.replicate 4 0), 0⟩

def quadRoom : Store (Vector UInt8 4) := ⟨Array.replicate 8 (Vector.replicate 4 0), .start 8⟩

theorem promised_quads : Promised (.ofConfig reversedPair) reversedPair (.raw 4) quads quadRoom :=
  ⟨rfl, derivesLimit_reversedPair, equipped_reversedPair.storage, by decide, by decide,
    nofun, fun _ => rfl, Scheduling.reversed.perm_order, Scheduling.reversed.perm_order⟩

/-- Only the chunk of the numbers 2 and 3 is not dense.  The first chunk goes in wide words; three elements are
selected before the later block, so that its chunks end up at addresses that are no multiples of eight. -/
theorem dense_chunks_copied_quads :
    let result := copyIf reversedPair (.raw 4) quads #[1, 1, 0, 1, 1, 1, 1, 1] (.ofValue (· == (1 : Nat))) 0
      quadRoom
    result.1 = .ok 7 ∧ (result.2.journal.records.toList.drop 3).take 3 =
      [.bulkCopy ⟨1, 2, .bytewise, 16, 12⟩, .bulkCopy ⟨1, 2, .bytewise, 24, 20⟩,
        .bulkCopy ⟨0, 2, .wide, 0, 0⟩] := by
  intro result
  have hstencil : quads.length ≤ #[1, 1, 0, 1, 1, 1, 1, 1].size := by decide
  have hlength : quads.length < Word.allocationLimit := by decide
  have hbytes : quadRoom.output.size * (Element.raw 4).size < Word.limit := by decide
  have hkept : (kept (· == (1 : Nat)) quads.values #[1, 1, 0, 1, 1, 1, 1, 1]).length = 7 := by decide
  have hok : (copyIfInOrder (.ofConfig reversedPair) reversedPair (.raw 4) quads #[1, 1, 0, 1, 1, 1, 1, 1]
      (.ofValue (· == (1 : Nat))) 0 quadRoom).1 = .ok 7 := by
    rw [← hkept]
    exact ((copyIfInOrder_compacts promised_quads hstencil (fun _ _ _ => rfl) 0).fits (by decide)).1
  refine ⟨hok, ?_⟩
  obtain ⟨task, store, hcopies⟩ := (dense_chunks_copied hlength hbytes reversedPair.scheduling.perm_order
    reversedPair.scheduling.admits_order #[1, 1, 0, 1, 1, 1, 1, 1] (· == 1) 0 nofun hok).2 (by decide)
  obtain ⟨element, input, offsets, output, cut⟩ := task
  obtain rfl : cut = .even 8 2 :=
    Except.ok.inj (hcopies.arrives.cut.symm.trans forLaunch_reversedPair)
  obtain ⟨rfl, rfl, _, rfl, _⟩ := Task.mk.inj hcopies.arrives.same
  have hresult : result = copyIfInOrder (.ofConfig reversedPair) reversedPair (.raw 4) quads
    #[1, 1, 0, 1, 1, 1, 1, 1] (.ofValue (· == (1 : Nat))) 0 quadRoom := rfl
  have horder : (Orders.ofConfig reversedPair).writing (Decomposition.even 8 2).count = [1, 0] := rfl
  have hearly : denseChunks (.even 8 2) (flagOf (fun _ => (· == 1)) #[1, 1, 0, 1, 1, 1, 1, 1])
    reversedPair.width 0 = [0] := by decide
  have hlate : denseChunks (.even 8 2) (flagOf (fun _ => (· == 1)) #[1, 1, 0, 1, 1, 1, 1, 1])
    reversedPair.width 1 = [4, 6] := by decide
  rw [hresult, hcopies.records]
  simp only [horder, hearly, hlate, chunkCopy, List.flatMap_cons, List.flatMap_nil, List.append_nil]
  decide

end Compaction

end BlockMachine
