import BlockMachine.Proofs.Compaction.Interleaving

/-!
# Predicates whose answers change

A compaction asks its predicate twice for each element, once to count and once to write, and does not compare
the answers.

* `Compaction.Disciplined` — each block keeps to the slots that the offsets give it, and nobody writes behind
  the last offset.
* `Compaction.disciplined_iff` — a compaction succeeds and keeps to that, in every order of its lanes, if and
  only if no block selects more elements when it writes than it has counted.
-/

set_option autoImplicit false

namespace BlockMachine

open Request BlockScan

namespace Compaction

variable {α S : Type}

/-- The flags that a predicate gives when it is asked once more after `earlier` times. -/
def flagsAt (keeps : Nat → Nat → S → Bool) (stencil : Array S) (earlier : Nat) : Nat → Nat :=
  flagOf (fun index => keeps index earlier) stencil

/-- The elements of a block for which the predicate holds when it is asked after `earlier` times. -/
def countAt (keeps : Nat → Nat → S → Bool) (stencil : Array S) (earlier : Nat) (cut : Decomposition)
    (block : Nat) : Nat :=
  countIn (flagsAt keeps stencil earlier) (cut.start block) (cut.start (block + 1))

/-- A compaction succeeds, its blocks keep to the slots that the offsets give them whatever turns their lanes
take, and what lies behind the last offset is as it was. -/
structure Disciplined (task : Task α) (before : Store α) (result : Except Failure Nat × Store α)
    (log : Scheduling → List (Nat × Nat) → List ((Nat × Nat) × Deed Nat α)) : Prop where
  answers : result.1 = .ok (task.offsets.back?.getD 0)
  own : ∀ scheduling places, ∀ block < task.cut.count, ∃ first stop,
    firstPlace task.offsets block = .ok first ∧ task.offsets[block]? = some stop ∧
      ∀ lane slot, ∀ place < task.element.size,
        (block, lane) ∈ Grid.writers task.element slot place (log scheduling places) →
          first ≤ slot ∧ slot < stop
  apart : ∀ scheduling places slot, ∀ place < task.element.size, ∀ place' < task.element.size,
    ∀ party ∈ Grid.writers task.element slot place (log scheduling places),
    ∀ party' ∈ Grid.writers task.element slot place' (log scheduling places), party.1 = party'.1
  behind : ∀ slot, task.offsets.back?.getD 0 ≤ slot → result.2.output[slot]? = before.output[slot]?

/-! ## Flags that are found and flags that were counted -/

section Counted

variable {config : LaunchConfig} {task : Task α} {counted items : Nat → Nat} {flags : View Nat}
  {before store : Store α} (prepared : Prepared config task counted) (hitems : ∀ index, items index ≤ 1)
  {plan : Plan (kernel flags task) (config.geometry task.cut.count) store.journal.calls}
  (hmoves : Moves task counted items (config.geometry task.cut.count) plan.requests plan.stops)

/-- No block selects more than it has counted. -/
def Within (task : Task α) (counted items : Nat → Nat) : Prop :=
  ∀ block < task.cut.count, countIn items (task.cut.start block) (task.cut.start (block + 1)) ≤
    countIn counted (task.cut.start block) (task.cut.start (block + 1))

include prepared

theorem Prepared.fits_of_within (h : Within task counted items) : Fits task counted items := by
  intro block hblock
  have hle := h block hblock
  have hfits := prepared.fits block hblock
  omega

theorem Prepared.firstPlace_eq {block : Nat} (hblock : block < task.cut.count) :
    firstPlace task.offsets block = .ok (total counted (task.cut.start block)) := by
  rw [prepared.offsets]
  exact firstPlace_ends hblock

theorem Prepared.getElem?_offsets {block : Nat} (hblock : block < task.cut.count) :
    task.offsets[block]? = some (total counted (task.cut.start (block + 1))) := by
  rw [prepared.offsets]
  exact getElem?_ends hblock

/-- Room, as the offsets tell. -/
theorem Prepared.fits_iff : Fits task counted items ↔ ∀ block < task.cut.count, ∃ first,
    firstPlace task.offsets block = .ok first ∧
      first + countIn items (task.cut.start block) (task.cut.start (block + 1)) ≤ task.output.length := by
  constructor
  · exact fun h block hblock => ⟨_, prepared.firstPlace_eq hblock, h block hblock⟩
  · intro h block hblock
    obtain ⟨first, hfirst, hle⟩ := h block hblock
    obtain rfl := Except.ok.inj ((prepared.firstPlace_eq hblock).symm.trans hfirst)
    exact hle

include hitems hmoves

/-- What a block writes ends where the next block starts. -/
theorem Prepared.inside_of_within (h : Within task counted items) (scheduling : Scheduling)
    (places : List (Nat × Nat)) {block lane slot place : Nat} (hplace : place < task.element.size)
    (hwriter : (block, lane) ∈ Grid.writers task.element slot place (Grid.log scheduling
      (kernel flags task) (config.geometry task.cut.count) store places)) :
    block < task.cut.count ∧ total counted (task.cut.start block) ≤ slot ∧
      slot < total counted (task.cut.start (block + 1)) := by
  obtain ⟨hblock, _, hfirst, hlast⟩ :=
    (prepared.orderly hitems hmoves scheduling places).inside block lane slot place hplace hwriter
  have hle := h block hblock
  have hstop := total_start_add counted task.cut block
  exact ⟨hblock, hfirst, by omega⟩

/-- **If no block selects more than it has counted**, the blocks keep to their slots. -/
theorem Prepared.disciplined (hsize : 0 < task.element.size) (h : Within task counted items)
    {result : Except Failure Nat × Store α} (hanswer : result.1 = .ok (task.offsets.back?.getD 0))
    {order : List Nat} (horder : order.Perm (List.range task.cut.count))
    (houtput : result.2.output =
      ((store.launched config task.cut.count).after task.element (order.flatMap plan.requests)).output)
    (hsame : store.output = before.output) :
    Disciplined task before result fun scheduling =>
      Grid.log scheduling (kernel flags task) (config.geometry task.cut.count) store := by
  refine ⟨hanswer, fun scheduling places block hblock => ?_, ?_, fun slot hslot => ?_⟩
  · refine ⟨_, _, prepared.firstPlace_eq hblock, prepared.getElem?_offsets hblock, ?_⟩
    intro lane slot place hplace hwriter
    exact (prepared.inside_of_within hitems hmoves h scheduling places hplace hwriter).2
  · rintro scheduling places slot place hplace place' hplace' ⟨block, lane⟩ hwriter ⟨other, lane'⟩
      hwriter'
    obtain ⟨_, hfirst, hlast⟩ :=
      prepared.inside_of_within hitems hmoves h scheduling places hplace hwriter
    obtain ⟨_, hfirst', hlast'⟩ :=
      prepared.inside_of_within hitems hmoves h scheduling places hplace' hwriter'
    rcases Nat.lt_trichotomy block other with hlt | heq | hlt
    · have hmono : total counted (task.cut.start (block + 1)) ≤ total counted (task.cut.start other) :=
        total_mono counted (task.cut.start_mono hlt)
      omega
    · exact heq
    · have hmono : total counted (task.cut.start (other + 1)) ≤ total counted (task.cut.start block) :=
        total_mono counted (task.cut.start_mono hlt)
      omega
  · have hselected : task.offsets.back?.getD 0 = total counted task.cut.total := by
      rw [prepared.offsets, back?_ends prepared.count]
    rw [houtput, Store.getElem?_after_of_no_pieces hsize fun place hplace => ?_]
    · exact congrArg (·[slot]?) hsame
    · -- the slot is behind what any of the blocks writes
      rw [Request.pieces_flatMap, List.flatMap_eq_nil_iff]
      intro block hmem
      have hblock := List.mem_range.mp (horder.mem_iff.mp hmem)
      refine (hmoves.writes block hblock).outside slot (.inr ?_) place hplace
      have hle := h block hblock
      have hstop := total_start_add counted task.cut block
      have hmono : total counted (task.cut.start (block + 1)) ≤ total counted task.cut.total :=
        total_mono counted (Decomposition.start_le_total hblock)
      rw [prepared.length_selected hitems hblock]
      omega

/-- **If the blocks keep to their slots**, no block selects more than it has counted. -/
theorem Prepared.within_of_own (hsize : 0 < task.element.size)
    (hown : ∀ places, ∀ block < task.cut.count, ∃ first stop,
      firstPlace task.offsets block = .ok first ∧ task.offsets[block]? = some stop ∧
        ∀ lane slot, ∀ place < task.element.size,
          (block, lane) ∈ Grid.writers task.element slot place (Grid.log .parallel (kernel flags task)
            (config.geometry task.cut.count) store places) → first ≤ slot ∧ slot < stop) :
    Within task counted items := by
  intro block hblock
  refine Nat.le_of_not_lt fun hlt => ?_
  obtain ⟨places, hover⟩ :=
    Grid.exists_run_append plan hmoves.ends (rfl : store.journal.calls = _) .parallel []
  rw [List.nil_append] at hover
  -- the block writes the first slot of the next one
  have hstop := total_start_add counted task.cut block
  have hcount := (prepared.orderly hitems hmoves .parallel places).once hover block hblock
    (total counted (task.cut.start (block + 1))) 0 hsize
  rw [if_pos (by omega)] at hcount
  have hmem : block ∈ (Grid.writers task.element (total counted (task.cut.start (block + 1))) 0
      (Grid.log .parallel (kernel flags task) (config.geometry task.cut.count) store places)).map
        Prod.fst := List.count_pos_iff.mp (by omega)
  obtain ⟨⟨block', lane⟩, hwriter, rfl⟩ := List.mem_map.mp hmem
  obtain ⟨_, stop, _, hget, hinside⟩ := hown places block' hblock
  rw [prepared.getElem?_offsets hblock] at hget
  obtain rfl := Option.some.inj hget
  exact absurd (hinside lane _ 0 hsize hwriter).2 (Nat.lt_irrefl _)

end Counted

section Changing

variable {orders : Orders} {config : LaunchConfig} {element : Element α} {input : Placed α}
  {stencil : Array S} {keeps : Nat → Nat → S → Bool} {address : Nat} {before store : Store α}
  {task : Task α}

/-- **A compaction whose predicate may change its answers.**  It succeeds if and only if each block finds room
behind its start for what it selects at the second asking; then each block writes just these slots, each byte
once; and it is disciplined if and only if no block selects more at the second asking than at the first. -/
theorem disciplined_iff
    (harrives : Arrives orders config element input
      (stencilFlags stencil (fun index earlier value => .ok (keeps index earlier value)) input.length)
      address before task store)
    (hstencil : input.length ≤ stencil.size) (hlength : input.length < Word.allocationLimit)
    (hbytes : before.output.size * element.size < Word.limit) (hsize : 0 < element.size)
    (hclone : ∀ value, ∃ copy, element.clone value = .ok copy)
    (hcounting : ∀ blocks, (orders.counting blocks).Perm (List.range blocks))
    (hwriting : ∀ blocks, (orders.writing blocks).Perm (List.range blocks))
    (hfresh : ∀ index < input.length, before.journal.calls[index]? = some 0) :
    let result := copyIfInOrder orders config element input stencil
      (fun index earlier value => .ok (keeps index earlier value)) address before
    let run := fun scheduling => Grid.run scheduling (kernel (stencilFlags stencil
      (fun index earlier value => .ok (keeps index earlier value)) input.length) task)
      (config.geometry task.cut.count) store
    let log := fun scheduling => Grid.log scheduling (kernel (stencilFlags stencil
      (fun index earlier value => .ok (keeps index earlier value)) input.length) task)
      (config.geometry task.cut.count) store
    ((∃ count, result.1 = .ok count) ↔ ∀ block < task.cut.count, ∃ first,
      firstPlace task.offsets block = .ok first ∧
        first + countAt keeps stencil 1 task.cut block ≤ before.output.size) ∧
    ((∃ count, result.1 = .ok count) → ∀ scheduling places, (run scheduling places).isOver = true →
      ∀ block < task.cut.count, ∃ first, firstPlace task.offsets block = .ok first ∧
        ∀ slot, ∀ place < task.element.size,
          ((Grid.writers task.element slot place (log scheduling places)).map Prod.fst).count block =
            if first ≤ slot ∧ slot < first + countAt keeps stencil 1 task.cut block then 1 else 0) ∧
    (Disciplined task before result log ↔ ∀ block < task.cut.count,
      countAt keeps stencil 1 task.cut block ≤ countAt keeps stencil 0 task.cut block) := by
  intro result run log
  have hitem : ∀ earlier, ∀ index < input.length,
      (stencilFlags stencil (fun index earlier value => .ok (keeps index earlier value))
        input.length).item index earlier = .ok (flagsAt keeps stencil earlier index) :=
    fun earlier index hindex => item_stencilFlags hstencil hindex fun _ => rfl
  have hflags : ∀ earlier index, flagsAt keeps stencil earlier index ≤ 1 :=
    fun earlier => flagOf_le _ stencil
  obtain ⟨prepared, hcalls⟩ := harrives.prepared hlength hbytes hclone hcounting (hflags 0)
    fun index hindex => by rw [hfresh index hindex]; exact hitem 0 index hindex
  have hinput : task.input = input := by rw [harrives.same]
  have helement : task.element = element := by rw [harrives.same]
  have houtput : task.output.length = before.output.size := by rw [harrives.same]; rfl
  -- each element has been asked for once when the blocks write
  have hgives : ∀ index < task.cut.total,
      (stencilFlags stencil (fun index earlier value => .ok (keeps index earlier value))
        input.length).item index (store.journal.calls[index]?.getD 0) =
          .ok (flagsAt keeps stencil 1 index) := by
    intro index hindex
    rw [prepared.covers, hinput] at hindex
    rw [hcalls index, hfresh index hindex, if_pos hindex]
    exact hitem 1 index hindex
  have hresult : result = compactFlags orders config element input (stencilFlags stencil
      (fun index earlier value => .ok (keeps index earlier value)) input.length) address before :=
    if_neg (Nat.not_lt.mpr hstencil)
  have hanswers : (∃ count, result.1 = .ok count) ↔
      Fits task (flagsAt keeps stencil 0) (flagsAt keeps stencil 1) := by
    rw [hresult]
    exact harrives.exists_ok_iff prepared (hflags 1) hgives hwriting
  rw [harrives.compactFlags_eq] at hresult
  refine ⟨hanswers.trans ?_, fun hok scheduling places hover block hblock => ?_, ?_, ?_⟩
  · rw [prepared.fits_iff, houtput]
    rfl
  · obtain ⟨plan, hmoves, _⟩ := prepared.launchInOrder_eq (hflags 1) hgives (hanswers.mp hok)
    exact ⟨_, prepared.firstPlace_eq hblock,
      (prepared.orderly (hflags 1) hmoves scheduling places).once hover block hblock⟩
  · intro h
    obtain ⟨plan, hmoves, _⟩ :=
      prepared.launchInOrder_eq (hflags 1) hgives (hanswers.mp ⟨_, h.answers⟩)
    exact prepared.within_of_own (hflags 1) hmoves (helement ▸ hsize) (h.own .parallel)
  · intro h
    obtain ⟨plan, hmoves, hlaunch⟩ :=
      prepared.launchInOrder_eq (hflags 1) hgives (prepared.fits_of_within h)
    rw [hlaunch orders.writing (hwriting _)] at hresult
    exact prepared.disciplined (hflags 1) hmoves (helement ▸ hsize) h (by rw [hresult])
      (hwriting task.cut.count) (by rw [hresult]; rfl) harrives.output

end Changing

/-! ## A predicate that wants nothing at first and then everything -/

def late (_ earlier : Nat) (_ : Unit) : Bool := earlier ≠ 0

def lateFlags : View Nat :=
  stencilFlags #[(), ()] (fun index earlier value => .ok (late index earlier value)) 2

/-- Nothing has been counted. -/
def lateTask : Task (Vector UInt8 2) := { pairTask with offsets := #[0] }

def lateFound : Store (Vector UInt8 2) :=
  ⟨pairStore.output, (offsets List.range pairConfig lateFlags (.even 2 1) pairStore.journal).2⟩

theorem arrives_late : Arrives (.ofConfig pairConfig) pairConfig (.raw 2) pairInput lateFlags 0 pairStore
    lateTask lateFound :=
  ⟨by decide, rfl, rfl, arrives_pair.cut, Prod.ext (by decide +kernel) rfl, by decide, rfl, rfl⟩

/-- The compaction succeeds and the blocks do not keep to their slots. -/
theorem late_not_disciplined :
    (∃ count, (copyIf pairConfig (.raw 2) pairInput #[(), ()]
      (fun index earlier value => .ok (late index earlier value)) 0 pairStore).1 = .ok count) ∧
    ¬ Disciplined lateTask pairStore (copyIf pairConfig (.raw 2) pairInput #[(), ()]
      (fun index earlier value => .ok (late index earlier value)) 0 pairStore)
      (fun scheduling => Grid.log scheduling (kernel lateFlags lateTask) (pairConfig.geometry 1)
        lateFound) := by
  have hfresh : ∀ index < pairInput.length, pairStore.journal.calls[index]? = some 0 := by decide
  obtain ⟨hanswers, _, hdisciplined⟩ := disciplined_iff arrives_late (by decide) (by decide) (by decide)
    (by decide) (fun value => ⟨value, rfl⟩) Scheduling.parallel.perm_order
    Scheduling.parallel.perm_order hfresh
  refine ⟨hanswers.mpr fun block hblock => ?_, fun h => ?_⟩
  · obtain rfl : block = 0 := Nat.lt_one_iff.mp hblock
    exact ⟨0, rfl, by decide⟩
  · exact absurd (hdisciplined.mp h 0 (by decide)) (by decide)

end Compaction

end BlockMachine
