import BlockMachine.Proofs.Compaction.DenseChunks
import BlockMachine.Proofs.Compaction.Offsets

/-!
# The writing launch of a compaction

* `Compaction.Prepared` — what a compaction has made sure of when it comes to its writing launch.
* `Compaction.Prepared.add_width` — its blocks count their chunks without leaving the words.
* `Compaction.Prepared.exists_plan` — the launch has a plan, whatever its flags are now.
* `Compaction.Prepared.launchInOrder_eq`, `Compaction.Prepared.launchInOrder_error` — it succeeds, in any
  order of the blocks, if each block finds room for what it selects, and fails in any order if not.
* `Compaction.Prepared.writes` — with the flags that were counted all blocks together write what is selected.
* `Compaction.Arrives` — a compaction comes to its writing launch, and `Compaction.Arrives.prepared` says what
  it has made sure of.
* `Compaction.exists_arrives`, `Compaction.compactFlags_exceeds` — it comes there if its output has room for what
  it selects, and otherwise says how large the output had to be.
* `Compaction.Arrives.exists_ok_iff` — it succeeds if and only if the writing launch has room.
-/

set_option autoImplicit false

namespace BlockMachine

open Request BlockScan

namespace Compaction

variable {α : Type} {config : LaunchConfig} {task : Task α} {counted items : Nat → Nat}

/-- What a compaction that has counted certain flags relies on when it comes to its writing launch. -/
structure Prepared (config : LaunchConfig) (task : Task α) (counted : Nat → Nat) : Prop where
  valid : config.validate = .ok ()
  count : 0 < task.cut.count
  covers : task.cut.total = task.input.length
  length : task.input.length < Word.allocationLimit
  clone : ∀ value, ∃ copy, task.element.clone value = .ok copy
  output : task.output = .whole task.output.address task.element.size task.output.length
  bytes : task.output.length * task.element.size < Word.limit
  flags : ∀ index, counted index ≤ 1
  offsets : task.offsets = ends task.cut counted
  room : total counted task.cut.total ≤ task.output.length

/-- What is selected up to the end of an interval. -/
theorem total_start_add (items : Nat → Nat) (cut : Decomposition) (block : Nat) :
    total items (cut.start block) + countIn items (cut.start block) (cut.start (block + 1)) =
      total items (cut.start (block + 1)) :=
  total_add_countIn items (cut.start_mono (Nat.le_succ block))

namespace Prepared

variable (prepared : Prepared config task counted)

include prepared

theorem setting (flags : View Nat) (hitems : ∀ index, items index ≤ 1) :
    Setting (kernel flags task).callbacks task items config.width := by
  obtain ⟨_, hwidth⟩ := LaunchConfig.width_of_validate prepared.valid
  refine ⟨rfl, rfl, prepared.clone, hitems, prepared.output, prepared.bytes, ?_⟩
  have hlength := prepared.length
  have hlimits : Word.allocationLimit + maxThreadsPerBlock < Word.limit := by decide
  omega

/-- Its blocks count their chunks in words. -/
theorem add_width {block turn : Nat} (hblock : block < task.cut.count)
    (hturn : turn ≤ (task.cut.start (block + 1) - task.cut.start block) / config.width) :
    Word.add (task.cut.start block + turn * config.width) config.width =
      .ok (task.cut.start block + (turn + 1) * config.width) := by
  obtain ⟨_, hwidth⟩ := LaunchConfig.width_of_validate prepared.valid
  have hlength := prepared.length
  have hstop : task.cut.start (block + 1) ≤ task.cut.total := Decomposition.start_le_total hblock
  have hcovers := prepared.covers
  have hlimits : Word.allocationLimit + maxThreadsPerBlock < Word.limit := by decide
  exact add_fullChunk (by omega) hturn

/-- Where a block starts is behind no more elements than there are before its interval. -/
theorem total_start_le (block : Nat) : total counted (task.cut.start block) ≤ task.cut.start block :=
  total_le_self prepared.flags _

/-- A block starts within the output. -/
theorem total_start_le_length {block : Nat} (hblock : block ≤ task.cut.count) :
    total counted (task.cut.start block) ≤ task.output.length :=
  Nat.le_trans (total_mono counted (Decomposition.start_le_total hblock)) prepared.room

/-- **The writing launch has a plan**, also if the flags are not those that were counted. -/
theorem exists_plan (flags : View Nat) (hitems : ∀ index, items index ≤ 1) {calls : Array Nat}
    (hgives : ∀ index < task.cut.total, flags.item index (calls[index]?.getD 0) = .ok (items index)) :
    ∃ plan : Plan (kernel flags task) (config.geometry task.cut.count) calls,
      ∀ block < task.cut.count, Outcome task items (config.geometry task.cut.count) block
        (total counted (task.cut.start block)) (task.cut.start block) (task.cut.start (block + 1))
        (plan.stages block) (plan.stops block) := by
  obtain ⟨hwidth, _⟩ := LaunchConfig.width_of_validate prepared.valid
  have hsetting : Setting (kernel flags task).callbacks task items
      (config.geometry task.cut.count).threads := prepared.setting flags hitems
  have hslots : (⟨Slots.blank config.width 0, calls⟩ : Sight Nat).slots.size =
      (config.geometry task.cut.count).threads := Array.size_replicate ..
  exact Plan.exists_of_intervals (kernel flags task) (config.geometry task.cut.count) calls rfl task.cut _
    fun block hblock => by
        have hfirst : firstPlace task.offsets block = .ok (total counted (task.cut.start block)) := by
          rw [prepared.offsets]
          exact firstPlace_ends hblock
        have hstop : task.cut.start (block + 1) ≤ task.cut.total := Decomposition.start_le_total hblock
        obtain ⟨stages, stops, hruns, houtcome⟩ := runs_program hsetting block hwidth prepared.covers
          hblock hfirst (prepared.total_start_le block)
          (prepared.total_start_le_length (Nat.le_of_lt hblock)) hslots
          fun index _ hlt => hgives index (Nat.lt_of_lt_of_le hlt hstop)
        exact ⟨stages, stops, hruns, houtcome.within, houtcome⟩

end Prepared

/-! ## The whole launch -/

/-- Whether the output has room behind each block's start for what the block selects. -/
def Fits (task : Task α) (counted items : Nat → Nat) : Prop :=
  ∀ block < task.cut.count, total counted (task.cut.start block) +
    countIn items (task.cut.start block) (task.cut.start (block + 1)) ≤ task.output.length

/-- What the blocks of a writing launch do that has room for all they select. -/
structure Moves (task : Task α) (counted items : Nat → Nat) (geometry : Geometry)
    (requests : Nat → List (Request Nat α)) (stops : Nat → Nat → Stop Nat α Unit) : Prop where
  ends : ∀ block < task.cut.count, Block.EndWell geometry.threads (stops block)
  writes : ∀ block < task.cut.count, Writes task.element (total counted (task.cut.start block))
    (selected items task.input.values (task.cut.start block)
      (task.cut.start (block + 1) - task.cut.start block)) (requests block)
  /-- With the flags that were counted one request writes all of a slot, unless the slot is filled from a dense chunk
  whose elements are copied through their bytes. -/
  whole : counted = items → ∀ block < task.cut.count, ∀ request ∈ requests block, ∀ slot,
    ∀ place < task.element.size, request.piece? task.element slot place ≠ none →
      (BlockCopy.ByElement task.element geometry.wideCopy ∨
        ¬ InDense task.cut items geometry.threads slot) → request.Whole

section Whole

variable {flags : View Nat} {order : Nat → List Nat} {store : Store α}

/-- **The writing launch succeeds in any order**, if it has room for all that it selects. -/
theorem Prepared.launchInOrder_eq (prepared : Prepared config task counted)
    (hitems : ∀ index, items index ≤ 1)
    (hgives : ∀ index < task.cut.total,
      flags.item index (store.journal.calls[index]?.getD 0) = .ok (items index))
    (hfits : Fits task counted items) :
    ∃ plan : Plan (kernel flags task) (config.geometry task.cut.count) store.journal.calls,
      Moves task counted items (config.geometry task.cut.count) plan.requests plan.stops ∧
      ∀ order : Nat → List Nat, (order task.cut.count).Perm (List.range task.cut.count) →
        launchInOrder order config (kernel flags task) task.cut.count config.width store =
          (.ok (), (store.launched config task.cut.count).after task.element
            ((order task.cut.count).flatMap plan.requests)) := by
  obtain ⟨plan, hplan⟩ := prepared.exists_plan flags hitems hgives
  have hends : ∀ block < task.cut.count, Block.EndWell config.width (plan.stops block) :=
    fun block hblock => (hplan block hblock).ends (hfits block hblock)
  obtain ⟨hwidth, _⟩ := LaunchConfig.width_of_validate prepared.valid
  refine ⟨plan, ⟨hends, fun block hblock => (hplan block hblock).writes (hfits block hblock),
      fun hsame block hblock request hr slot place hplace hpiece hapart => ?_⟩,
    fun order horder => plan.launchInOrder_eq prepared.valid prepared.count horder rfl hends⟩
  have hchunks := (hplan block hblock).turns (by rw [hsame]) (hfits block hblock)
  exact hchunks.whole (prepared.setting flags hitems) hwidth hblock hr hplace hpiece hapart

/-- **The writing launch fails in any order**, if some block has no room for what it selects. -/
theorem Prepared.launchInOrder_error (prepared : Prepared config task counted)
    (hitems : ∀ index, items index ≤ 1)
    (hgives : ∀ index < task.cut.total,
      flags.item index (store.journal.calls[index]?.getD 0) = .ok (items index))
    (hfits : ¬ Fits task counted items)
    (horder : (order task.cut.count).Perm (List.range task.cut.count)) :
    ∃ failure store', launchInOrder order config (kernel flags task) task.cut.count config.width store =
      (.error failure, store') := by
  obtain ⟨plan, hplan⟩ := prepared.exists_plan flags hitems hgives
  refine plan.launchInOrder_error prepared.valid horder rfl (fun block hblock => ?_) ?_
  · rcases Nat.lt_or_ge task.output.length (total counted (task.cut.start block) +
      countIn items (task.cut.start block) (task.cut.start (block + 1))) with hlt | hle
    · exact .inr ((hplan block hblock).faults hlt)
    · exact .inl ((hplan block hblock).ends hle)
  · simp only [Fits, not_forall] at hfits
    obtain ⟨block, hblock, hlt⟩ := hfits
    exact ⟨block, hblock, (hplan block hblock).faults (Nat.lt_of_not_le hlt)⟩

/-- Flags that are as they were counted find room. -/
theorem Prepared.fits (prepared : Prepared config task counted) : Fits task counted counted := by
  intro block hblock
  rw [total_start_add]
  exact prepared.total_start_le_length hblock

/-- The number of elements that a block selects. -/
theorem Prepared.length_selected (prepared : Prepared config task counted)
    (hitems : ∀ index, items index ≤ 1) {block : Nat} (hblock : block < task.cut.count) :
    (selected items task.input.values (task.cut.start block)
      (task.cut.start (block + 1) - task.cut.start block)).length =
        countIn items (task.cut.start block) (task.cut.start (block + 1)) := by
  have hcovers := prepared.covers
  have hsize : task.input.length = task.input.values.size := rfl
  have hle : task.cut.start block ≤ task.cut.start (block + 1) := task.cut.start_mono (Nat.le_succ block)
  have hstop : task.cut.start (block + 1) ≤ task.cut.total := Decomposition.start_le_total hblock
  exact Compaction.length_selected hitems (by omega)

/-- **All blocks together** write what is selected in all, if the flags are as they were counted. -/
theorem Prepared.writes (prepared : Prepared config task counted)
    {requests : Nat → List (Request Nat α)} {stops : Nat → Nat → Stop Nat α Unit}
    (h : Moves task counted counted (config.geometry task.cut.count) requests stops) :
    Writes task.element 0 (selected counted task.input.values 0 task.input.length)
      ((List.range task.cut.count).flatMap requests) := by
  have hmono : ∀ block < task.cut.count, task.cut.start block ≤ task.cut.start (block + 1) :=
    fun block _ => task.cut.start_mono (Nat.le_succ block)
  have hsize : task.input.length = task.input.values.size := rfl
  have hstart : ∀ block < task.cut.count, total counted (task.cut.start (block + 1)) =
      total counted (task.cut.start block) + (selected counted task.input.values (task.cut.start block)
        (task.cut.start (block + 1) - task.cut.start block)).length := by
    intro block hblock
    have hstop : task.cut.start (block + 1) ≤ task.cut.total := Decomposition.start_le_total hblock
    rw [prepared.length_selected prepared.flags hblock, total_start_add]
  have hall := (Writes.flatMap (fun block => total counted (task.cut.start block)) _ hstart h.writes).1
  rw [flatMap_selected task.cut.start_zero hmono, Decomposition.start_count prepared.count,
    prepared.covers, Decomposition.start_zero, total_zero] at hall
  exact hall

end Whole

/-! ## The way to the writing launch -/

/-- **What the counting launch gives** if the flags are `items` and there is temporary storage for the counts. -/
theorem exists_offsets {flags : View Nat} {length : Nat} {order : Nat → List Nat} {journal : Journal}
    (hvalid : config.validate = .ok ()) (hproduct : blocksPerMultiprocessor * config.multiprocessors.toNat <
      Word.limit) (hempty : length ≠ 0) (hlength : length + 1 < Word.limit) (hflags : flags.length = length)
    (hstorage : ∀ cut, Decomposition.forLaunch config length = .ok cut →
      8 * cut.count < Word.allocationLimit ∧
        ∀ limit, config.tempLimit = some limit → 8 * cut.count ≤ limit.toNat)
    (horder : ∀ blocks, (order blocks).Perm (List.range blocks)) (hitems : ∀ index, items index ≤ 1)
    (hgives : ∀ index < length, flags.item index (journal.calls[index]?.getD 0) = .ok (items index)) :
    ∃ cut journal', Decomposition.forLaunch config length = .ok cut ∧ cut.total = length ∧
      Compaction.offsets order config flags cut journal = (.ok (ends cut items), journal') ∧
      (ends cut items).back?.getD 0 = total items length := by
  obtain ⟨cut, hcut, hcovers, hcount⟩ :=
    Decomposition.exists_forLaunch hvalid hproduct (Nat.pos_of_ne_zero hempty)
  obtain ⟨hallocation, hlimit⟩ := hstorage cut hcut
  simp only [Nat.mul_comm 8] at hallocation hlimit
  have hle := total_le_self hitems cut.total
  obtain ⟨journal', hoffsets, _⟩ := offsets_eq hvalid (hflags.trans hcovers.symm) (.of_total (by omega))
    hcount hallocation hlimit (horder _) (fun index hindex => hgives index (hcovers ▸ hindex)) (by omega)
  exact ⟨cut, journal', hcut, hcovers, hoffsets, by rw [back?_ends hcount, hcovers]⟩

/-- **What has been counted** once there are offsets, if the flags were `items`: each element has been asked for once
more, and none has been cloned. -/
theorem ends_of_offsets {flags : View Nat} {length : Nat} {order : Nat → List Nat} {cut : Decomposition}
    {found : Array Nat} {journal journal' : Journal} (hvalid : config.validate = .ok ())
    (hempty : length ≠ 0) (hcut : Decomposition.forLaunch config length = .ok cut)
    (hlength : length + 1 < Word.limit) (hflags : flags.length = length)
    (horder : ∀ blocks, (order blocks).Perm (List.range blocks)) (hitems : ∀ index, items index ≤ 1)
    (hgives : ∀ index < length, flags.item index (journal.calls[index]?.getD 0) = .ok (items index))
    (h : Compaction.offsets order config flags cut journal = (.ok found, journal')) :
    found = ends cut items ∧ Journal.Worked length 1 0 journal journal' := by
  obtain ⟨hcovers, hcount⟩ := Decomposition.of_forLaunch hvalid (Nat.pos_of_ne_zero hempty) hcut
  have hsum := total_le_self hitems cut.total
  obtain ⟨hstorage, hlimit⟩ : cut.count * 8 < Word.allocationLimit ∧
      ∀ limit, config.tempLimit = some limit → cut.count * 8 ≤ limit.toNat := by
    obtain ⟨_, _, _, hgranted, _⟩ := exists_counts h
    exact Temporary.within_of_allocate hgranted
  obtain ⟨after, hoffsets, hworked⟩ := offsets_eq hvalid (hflags.trans hcovers.symm)
    (.of_total (by omega)) hcount hstorage hlimit (horder _) (by rwa [hcovers]) (by omega)
  rw [h] at hoffsets
  obtain ⟨hends, rfl⟩ := Prod.mk.inj hoffsets
  rw [hcovers] at hworked
  exact ⟨Except.ok.inj hends, hworked⟩

/-- A compaction of `before` comes to its writing launch, with a task and with what it finds in `store`. -/
structure Arrives (orders : Orders) (config : LaunchConfig) (element : Element α) (input : Placed α)
    (flags : View Nat) (address : Nat) (before : Store α) (task : Task α) (store : Store α) : Prop where
  nonempty : input.length ≠ 0
  length : flags.length = input.length
  valid : config.validate = .ok ()
  cut : Decomposition.forLaunch config input.length = .ok task.cut
  offsets : Compaction.offsets orders.counting config flags task.cut before.journal =
    (.ok task.offsets, store.journal)
  room : task.offsets.back?.getD 0 ≤ before.output.size
  same : task = ⟨element, input, task.offsets, BlockCopy.destination element before.output address,
    task.cut⟩
  output : store.output = before.output

/-- A compaction of some elements that has cut its work, if the configuration is valid. -/
theorem compactFlags_of_cut {orders : Orders} {element : Element α} {input : Placed α} {flags : View Nat}
    {before : Store α} {cut : Decomposition} (hvalid : config.validate = .ok ()) (hempty : input.length ≠ 0)
    (hflags : flags.length = input.length) (hcut : Decomposition.forLaunch config input.length = .ok cut)
    (address : Nat) : compactFlags orders config element input flags address before =
      match offsets orders.counting config flags cut before.journal with
      | (.error failure, journal) => (.error failure, { before with journal := journal })
      | (.ok found, journal) => write orders.writing config flags
          ⟨element, input, found, BlockCopy.destination element before.output address, cut⟩
          { before with journal := journal } := by
  rw [compactFlags_def]
  rw [if_neg hempty, if_neg (not_not_intro hflags), hvalid]
  generalize Decomposition.forLaunch config input.length = found at hcut ⊢
  subst hcut
  rfl

section Room

variable {orders : Orders} {element : Element α} {input : Placed α} {flags : View Nat} {before : Store α}
  (hvalid : config.validate = .ok ())
  (hproduct : blocksPerMultiprocessor * config.multiprocessors.toNat < Word.limit)
  (hempty : input.length ≠ 0) (hlength : input.length + 1 < Word.limit) (hflags : flags.length = input.length)
  (hstorage : ∀ cut, Decomposition.forLaunch config input.length = .ok cut →
    8 * cut.count < Word.allocationLimit ∧
      ∀ limit, config.tempLimit = some limit → 8 * cut.count ≤ limit.toNat)
  (horder : ∀ blocks, (orders.counting blocks).Perm (List.range blocks)) (hitems : ∀ index, items index ≤ 1)
  (hgives : ∀ index < input.length,
    flags.item index (before.journal.calls[index]?.getD 0) = .ok (items index))

include hvalid hproduct hempty hlength hflags hstorage horder hitems hgives

/-- A compaction whose flags are `items` comes to its writing launch if there is room for what they select, -/
theorem exists_arrives (hroom : total items input.length ≤ before.output.size) (address : Nat) :
    ∃ task store, Arrives orders config element input flags address before task store ∧
      task.offsets.back?.getD 0 = total items input.length := by
  obtain ⟨cut, journal, hcut, _, hoffsets, hselected⟩ :=
    exists_offsets hvalid hproduct hempty hlength hflags hstorage horder hitems hgives
  exact ⟨⟨element, input, ends cut items, BlockCopy.destination element before.output address, cut⟩,
    ⟨before.output, journal⟩,
    ⟨hempty, hflags, hvalid, hcut, hoffsets, by rw [hselected]; exact hroom, rfl, rfl⟩, hselected⟩

/-- and otherwise says how large the output had to be. -/
theorem compactFlags_exceeds (hexceeds : before.output.size < total items input.length) (address : Nat) :
    ∃ journal, compactFlags orders config element input flags address before =
      (.error (.error (.outputTooSmall (total items input.length) before.output.size)),
        { before with journal := journal }) := by
  obtain ⟨cut, journal, hcut, _, hoffsets, hselected⟩ :=
    exists_offsets hvalid hproduct hempty hlength hflags hstorage horder hitems hgives
  refine ⟨journal, ?_⟩
  rw [compactFlags_of_cut hvalid hempty hflags hcut, hoffsets]
  simp only [write_def, hselected, if_pos hexceeds]

end Room

/-- The store once a compaction has logged that it has succeeded. -/
def reported (task : Task α) (store : Store α) : Store α :=
  let selected := task.offsets.back?.getD 0
  { store with journal := report selected task.input.length task.cut.count store.journal }

section Arrives

variable {orders : Orders} {element : Element α} {input : Placed α} {flags : View Nat} {address : Nat}
  {before store : Store α}

/-- **What a compaction answers that comes to its writing launch.** -/
theorem Arrives.compactFlags_eq
    (h : Arrives orders config element input flags address before task store) :
    compactFlags orders config element input flags address before =
      match launchInOrder orders.writing config (kernel flags task) task.cut.count config.width store with
      | (.error failure, after) => (.error failure, after)
      | (.ok (), after) => (.ok (task.offsets.back?.getD 0), reported task after) := by
  have hstore : store = { before with journal := store.journal } := by rw [← h.output]
  rw [compactFlags_of_cut h.valid h.nonempty h.length h.cut, h.offsets]
  simp only
  rw [← h.same, ← hstore]
  rw [write_def]
  rw [if_neg (Nat.not_lt.mpr (h.output ▸ h.room))]
  rfl

/-- **What a compaction has made sure of** when it comes to its writing launch, if its flags were `items`.
Each element has then been asked for once more. -/
theorem Arrives.prepared (h : Arrives orders config element input flags address before task store)
    (hlength : input.length < Word.allocationLimit)
    (hbytes : before.output.size * element.size < Word.limit)
    (hclone : ∀ value, ∃ copy, element.clone value = .ok copy)
    (horder : ∀ blocks, (orders.counting blocks).Perm (List.range blocks))
    (hitems : ∀ index, items index ≤ 1)
    (hgives : ∀ index < input.length,
      flags.item index (before.journal.calls[index]?.getD 0) = .ok (items index)) :
    Prepared config task items ∧ ∀ index, store.journal.calls[index]? =
      before.journal.calls[index]?.map (· + if index < input.length then 1 else 0) := by
  have hlimits : Word.allocationLimit < Word.limit := by decide
  obtain ⟨hcovers, hcount⟩ :=
    Decomposition.of_forLaunch h.valid (Nat.pos_of_ne_zero h.nonempty) h.cut
  obtain ⟨hends, hworked⟩ :=
    ends_of_offsets h.valid h.nonempty h.cut (by omega) h.length horder hitems hgives h.offsets
  have hselected : task.offsets.back?.getD 0 = total items task.cut.total := by
    rw [hends, back?_ends hcount]
  have helement : task.element = element := by rw [h.same]
  have hinput : task.input = input := by rw [h.same]
  have houtput : task.output = BlockCopy.destination element before.output address := by rw [h.same]
  refine ⟨⟨h.valid, hcount, by rw [hcovers, hinput], by rwa [hinput], by rwa [helement], ?_, ?_, hitems,
    hends, ?_⟩, hworked.calls⟩
  · rw [houtput, helement]
    rfl
  · rw [houtput, helement]
    exact hbytes
  · rw [houtput, ← hselected]
    exact h.room

/-- **A compaction that comes to its writing launch succeeds** if and only if that has room for all that it
selects. -/
theorem Arrives.exists_ok_iff (h : Arrives orders config element input flags address before task store)
    (prepared : Prepared config task counted) (hitems : ∀ index, items index ≤ 1)
    (hgives : ∀ index < task.cut.total,
      flags.item index (store.journal.calls[index]?.getD 0) = .ok (items index))
    (horder : ∀ blocks, (orders.writing blocks).Perm (List.range blocks)) :
    (∃ count, (compactFlags orders config element input flags address before).1 = .ok count) ↔
      Fits task counted items := by
  rw [h.compactFlags_eq]
  constructor
  · rintro ⟨count, hcount⟩
    by_contra hnot
    obtain ⟨failure, after, hfails⟩ :=
      prepared.launchInOrder_error hitems hgives hnot (horder task.cut.count)
    rw [hfails] at hcount
    cases hcount
  · intro hfits
    obtain ⟨plan, _, hlaunch⟩ := prepared.launchInOrder_eq hitems hgives hfits
    exact ⟨task.offsets.back?.getD 0, by rw [hlaunch orders.writing (horder _)]⟩

end Arrives

end Compaction

end BlockMachine
