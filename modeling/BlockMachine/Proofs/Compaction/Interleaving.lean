import BlockMachine.Proofs.Compaction.Result
import BlockMachine.Proofs.Interleaving.Writers

/-!
# The writing launch in any order of its lanes

* `Compaction.Orderly` — what the lanes of a writing launch keep to, whatever turns they take.
* `Compaction.Prepared.orderly` — they do so if the launch has room for all that it selects.
* `Compaction.WritesOnce` — each byte up to the last offset is written by one lane, and no other byte; so is each
  slot but those that are filled from dense chunks through their bytes.
* `Compaction.settles_run` — so it is with a predicate that looks at the stencil value alone, and all orders
  leave the same.
-/

set_option autoImplicit false

namespace BlockMachine

open Request BlockScan

namespace Compaction

variable {α S : Type} {config : LaunchConfig} {task : Task α} {counted items : Nat → Nat}

/-! ## Launches with room -/

/-- What the lanes of a writing launch keep to that counted certain flags and now finds others. -/
structure Orderly (task : Task α) (counted items : Nat → Nat) (threads : Nat) (reached : Grid Nat α)
    (log : List ((Nat × Nat) × Deed Nat α)) : Prop where
  apart : Grid.SlotsApart log
  well : ∀ block, reached.fault? block = none
  inside : ∀ block lane slot place, place < task.element.size →
    (block, lane) ∈ Grid.writers task.element slot place log →
      block < task.cut.count ∧ lane < threads ∧ total counted (task.cut.start block) ≤ slot ∧
        slot < total counted (task.cut.start block) +
          countIn items (task.cut.start block) (task.cut.start (block + 1))
  once : reached.isOver = true → ∀ block < task.cut.count, ∀ slot, ∀ place < task.element.size,
    ((Grid.writers task.element slot place log).map Prod.fst).count block =
      if total counted (task.cut.start block) ≤ slot ∧ slot < total counted (task.cut.start block) +
        countIn items (task.cut.start block) (task.cut.start (block + 1)) then 1 else 0

/-- **A writing launch with room keeps order**, whatever turns its lanes take. -/
theorem Prepared.orderly (prepared : Prepared config task counted) (hitems : ∀ index, items index ≤ 1)
    {flags : View Nat} {store : Store α}
    {plan : Plan (kernel flags task) (config.geometry task.cut.count) store.journal.calls}
    (hmoves : Moves task counted items (config.geometry task.cut.count) plan.requests plan.stops)
    (scheduling : Scheduling) (places : List (Nat × Nat)) :
    Orderly task counted items config.width
      (Grid.run scheduling (kernel flags task) (config.geometry task.cut.count) store places)
      (Grid.log scheduling (kernel flags task) (config.geometry task.cut.count) store places) := by
  have hfollows := Grid.follows_run plan rfl scheduling places
  refine ⟨hfollows.slotsApart hmoves.ends, hfollows.fault?_eq_none hmoves.ends, ?_, ?_⟩
  · intro block lane slot place hplace hwriter
    obtain ⟨request, hmem, hpiece⟩ := Grid.mem_writers.mp hwriter
    obtain ⟨hblock, hlane, hr⟩ := hfollows.mem_plan hmem
    have hwrites := hmoves.writes block hblock
    rw [← prepared.length_selected hitems hblock]
    -- elsewhere the block writes nothing
    have hinside : ¬ (slot < total counted (task.cut.start block) ∨
        total counted (task.cut.start block) + (selected items task.input.values (task.cut.start block)
          (task.cut.start (block + 1) - task.cut.start block)).length ≤ slot) := fun hslot =>
      hpiece (List.filterMap_eq_nil_iff.mp (hwrites.outside slot hslot place hplace) request hr)
    exact ⟨hblock, hlane, by omega, by omega⟩
  · intro hover block hblock slot place hplace
    rw [hfollows.count_writers hmoves.ends hover task.element slot place hblock,
      (hmoves.writes block hblock).length_pieces hplace, prepared.length_selected hitems hblock]

/-! ## Launches that find the flags that were counted -/

/-- Each byte up to the last offset is written once, by a lane of the block it belongs to, and no other byte is
written. -/
structure WritesOnce (task : Task α) (items : Nat → Nat) (geometry : Geometry)
    (log : List ((Nat × Nat) × Deed Nat α)) : Prop where
  below : ∀ slot < task.offsets.back?.getD 0, ∀ place < task.element.size,
    ∃ block < task.cut.count, ∃ lane < geometry.threads,
      Grid.writers task.element slot place log = [(block, lane)]
  /-- One lane writes all of a slot, unless elements are copied through their bytes and the slot is filled from a dense
  chunk. -/
  whole : ∀ slot < task.offsets.back?.getD 0, (BlockCopy.ByElement task.element geometry.wideCopy ∨
      ¬ InDense task.cut items geometry.threads slot) →
    ∃ party, ∀ place < task.element.size, Grid.writers task.element slot place log = [party]
  behind : ∀ slot, task.offsets.back?.getD 0 ≤ slot → ∀ place < task.element.size,
    Grid.writers task.element slot place log = []
  own : ∀ block < task.cut.count, ∃ first stop, firstPlace task.offsets block = .ok first ∧
    task.offsets[block]? = some stop ∧ ∀ slot, ∀ place < task.element.size,
      (∃ lane, (block, lane) ∈ Grid.writers task.element slot place log) ↔ first ≤ slot ∧ slot < stop

/-- The end of what a block writes. -/
theorem getElem?_ends {cut : Decomposition} {block : Nat} (hblock : block < cut.count) :
    (ends cut counted)[block]? = some (total counted (cut.start (block + 1))) := by
  rw [ends, List.getElem?_toArray, List.getElem?_map, List.getElem?_range hblock, Option.map_some]

/-- How many of the lanes write a byte, if the flags are as they were counted. -/
theorem Prepared.length_writers (prepared : Prepared config task counted) {flags : View Nat}
    {store : Store α}
    {plan : Plan (kernel flags task) (config.geometry task.cut.count) store.journal.calls}
    (hmoves : Moves task counted counted (config.geometry task.cut.count) plan.requests plan.stops)
    {scheduling : Scheduling} {places : List (Nat × Nat)}
    (hover : (Grid.run scheduling (kernel flags task) (config.geometry task.cut.count) store
      places).isOver = true) (slot : Nat) {place : Nat} (hplace : place < task.element.size) :
    (Grid.writers task.element slot place (Grid.log scheduling (kernel flags task)
      (config.geometry task.cut.count) store places)).length =
        if slot < task.offsets.back?.getD 0 then 1 else 0 := by
  have hfollows := Grid.follows_run plan rfl scheduling places
  have hselected : task.offsets.back?.getD 0 = total counted task.input.length := by
    rw [prepared.offsets, back?_ends prepared.count, prepared.covers]
  have hlength : (selected counted task.input.values 0 task.input.length).length =
      total counted task.input.length := length_selected_zero prepared.flags (Nat.le_refl _)
  rw [hfollows.length_writers hmoves.ends hover, hselected]
  refine ((prepared.writes hmoves).length_pieces hplace).trans ?_
  rw [hlength, Nat.zero_add]
  simp only [Nat.zero_le, true_and]

/-- **Each byte is written once**, if the flags are as they were counted. -/
theorem Prepared.writesOnce (prepared : Prepared config task counted) {flags : View Nat} {store : Store α}
    {plan : Plan (kernel flags task) (config.geometry task.cut.count) store.journal.calls}
    (hmoves : Moves task counted counted (config.geometry task.cut.count) plan.requests plan.stops)
    (scheduling : Scheduling) (places : List (Nat × Nat))
    (hover : (Grid.run scheduling (kernel flags task) (config.geometry task.cut.count) store
      places).isOver = true) :
    WritesOnce task counted (config.geometry task.cut.count)
      (Grid.log scheduling (kernel flags task) (config.geometry task.cut.count) store places) := by
  have horderly := prepared.orderly prepared.flags hmoves scheduling places
  have hfollows := Grid.follows_run plan rfl scheduling places
  have hone : ∀ slot < task.offsets.back?.getD 0, ∀ place < task.element.size, ∃ party,
      Grid.writers task.element slot place (Grid.log scheduling (kernel flags task)
        (config.geometry task.cut.count) store places) = [party] := by
    intro slot hslot place hplace
    have hlength := prepared.length_writers hmoves hover slot hplace
    rw [if_pos hslot] at hlength
    exact List.length_eq_one_iff.mp hlength
  refine ⟨fun slot hslot place hplace => ?_, fun slot hslot hapart => ?_, fun slot hslot place hplace => ?_,
    fun block hblock => ?_⟩
  · obtain ⟨⟨block, lane⟩, hwriter⟩ := hone slot hslot place hplace
    obtain ⟨hblock, hlane, _⟩ := horderly.inside block lane slot place hplace (by rw [hwriter]; simp)
    exact ⟨block, hblock, lane, hlane, hwriter⟩
  · rcases Nat.eq_zero_or_pos task.element.size with hzero | hpos
    · exact ⟨(0, 0), fun place hplace => absurd hplace (by omega)⟩
    · -- who writes the first byte writes the others with it
      obtain ⟨⟨block, lane⟩, hwriter⟩ := hone slot hslot 0 hpos
      obtain ⟨request, hmem, hpiece⟩ := Grid.mem_writers.mp (hwriter ▸ List.mem_singleton_self _)
      obtain ⟨hblock, _, hr⟩ := hfollows.mem_plan hmem
      have hwhole := hmoves.whole rfl block hblock request hr slot 0 hpos hpiece hapart
      refine ⟨(block, lane), fun place hplace => ?_⟩
      obtain ⟨party, hparty⟩ := hone slot hslot place hplace
      have hsame := Grid.mem_writers.mpr ⟨request, hmem, hwhole.piece?_ne_none hpiece place⟩
      rw [hparty, List.mem_singleton] at hsame
      rw [hparty, hsame]
  · have hnone := prepared.length_writers hmoves hover slot hplace
    rw [if_neg (Nat.not_lt.mpr hslot)] at hnone
    exact List.length_eq_zero_iff.mp hnone
  · have hstop := total_start_add counted task.cut block
    refine ⟨total counted (task.cut.start block), total counted (task.cut.start (block + 1)), ?_, ?_,
      fun slot place hplace => ⟨?_, fun hslot => ?_⟩⟩
    · rw [prepared.offsets]
      exact firstPlace_ends hblock
    · rw [prepared.offsets]
      exact getElem?_ends hblock
    · rintro ⟨lane, hwriter⟩
      obtain ⟨_, _, hfirst, hlast⟩ := horderly.inside block lane slot place hplace hwriter
      rw [hstop] at hlast
      exact ⟨hfirst, hlast⟩
    · have hcount := horderly.once hover block hblock slot place hplace
      rw [hstop, if_pos hslot] at hcount
      have hmem : block ∈ (Grid.writers task.element slot place (Grid.log scheduling
          (kernel flags task) (config.geometry task.cut.count) store places)).map Prod.fst :=
        List.count_pos_iff.mp (by omega)
      obtain ⟨⟨block', lane⟩, hwriter, rfl⟩ := List.mem_map.mp hmem
      exact ⟨lane, hwriter⟩

/-! ## Predicates that look at the stencil value alone -/

/-- What holds of a writing launch after some turns of its lanes, if the flags are `items` and the compaction answers
`result` with its blocks and lanes in the order of their numbers. -/
structure Settles (task : Task α) (items : Nat → Nat) (geometry : Geometry)
    (result : Except Failure Nat × Store α) (run : List (Nat × Nat) → Grid Nat α)
    (log : List (Nat × Nat) → List ((Nat × Nat) × Deed Nat α)) (places : List (Nat × Nat)) : Prop where
  /-- Between two barriers no lane touches a slot of its block that another one writes. -/
  apart : Grid.SlotsApart (log places)
  /-- No block has a fault. -/
  well : ∀ block, (run places).fault? block = none
  /-- The launch can be brought to its end. -/
  ends : ∃ more, (run (places ++ more)).isOver = true
  once : (run places).isOver = true → WritesOnce task items geometry (log places)
  /-- At the end the output is that of the compaction. -/
  output : (run places).isOver = true → (run places).store.output = result.2.output
  answers : result.1 = .ok (task.offsets.back?.getD 0)

/-- **The writing launch of a compaction settles whatever turns its lanes take**, with a predicate that looks
at the stencil value alone and clones that never panic. -/
theorem settles_run {orders : Orders} {element : Element α} {input : Placed α} {stencil : Array S}
    {keeps : S → Bool} {address : Nat} {before store : Store α}
    (harrives : Arrives orders config element input (stencilFlags stencil (.ofValue keeps) input.length)
      address before task store)
    (hstencil : input.length ≤ stencil.size) (hlength : input.length < Word.allocationLimit)
    (hbytes : before.output.size * element.size < Word.limit)
    (hzero : element.size = 0 → ∀ a b : α, a = b)
    (hclone : ∀ value, ∃ copy, element.clone value = .ok copy)
    (hcounting : ∀ blocks, (orders.counting blocks).Perm (List.range blocks))
    (hwriting : ∀ blocks, (orders.writing blocks).Perm (List.range blocks)) (scheduling : Scheduling)
    (places : List (Nat × Nat)) :
    Settles task (flagOf (fun _ => keeps) stencil) (config.geometry task.cut.count)
      (copyIfInOrder orders config element input stencil (.ofValue keeps) address before)
      (Grid.run scheduling (kernel (stencilFlags stencil (.ofValue keeps) input.length) task)
        (config.geometry task.cut.count) store)
      (Grid.log scheduling (kernel (stencilFlags stencil (.ofValue keeps) input.length) task)
        (config.geometry task.cut.count) store) places := by
  have hitem : ∀ index < input.length, ∀ earlier,
      (stencilFlags stencil (.ofValue keeps) input.length).item index earlier =
        .ok (flagOf (fun _ => keeps) stencil index) :=
    fun index hindex earlier => item_stencilFlags hstencil hindex fun _ => rfl
  have hitems := flagOf_le (fun _ => keeps) stencil
  obtain ⟨prepared, _⟩ := harrives.prepared hlength hbytes hclone hcounting hitems
    fun index hindex => hitem index hindex _
  have hinput : task.input = input := by rw [harrives.same]
  have helement : task.element = element := by rw [harrives.same]
  obtain ⟨plan, hmoves, hlaunch⟩ := prepared.launchInOrder_eq hitems
    (fun index hindex => hitem index (by rwa [prepared.covers, hinput] at hindex) _) prepared.fits
  have horderly := prepared.orderly hitems hmoves scheduling places
  have hresult : copyIfInOrder orders config element input stencil (.ofValue keeps) address before =
      compactFlags orders config element input (stencilFlags stencil (.ofValue keeps) input.length)
        address before := if_neg (Nat.not_lt.mpr hstencil)
  rw [harrives.compactFlags_eq, hlaunch orders.writing (hwriting _)] at hresult
  refine ⟨horderly.apart, horderly.well,
    Grid.exists_run_append plan hmoves.ends rfl scheduling places,
    prepared.writesOnce hmoves scheduling places, fun hover => ?_, by rw [hresult]⟩
  have hfollows := Grid.follows_run plan rfl scheduling places
  have hperm := (hfollows.of_isOver hmoves.ends hover).2.2
  have hone : ∀ slot place, place < task.element.size →
      (Request.pieces task.element slot place
        (Deed.requests (Grid.log scheduling (kernel (stencilFlags stencil (.ofValue keeps) input.length)
          task) (config.geometry task.cut.count) store places))).length ≤ 1 := by
    intro slot place hplace
    rw [(Request.pieces_perm task.element slot place hperm).length_eq]
    rw [show (List.range (config.geometry task.cut.count).blocks).flatMap plan.requests =
      (List.range task.cut.count).flatMap plan.requests from rfl,
      (prepared.writes hmoves).length_pieces hplace]
    split <;> omega
  rw [hresult, Grid.run_store]
  exact Store.output_after_perm (helement ▸ hzero)
    (hperm.trans ((hwriting task.cut.count).flatMap_right plan.requests).symm) hone rfl

/-! ## Two lanes and two numbers of two bytes -/

/-- One block of two lanes. -/
def pairConfig : LaunchConfig := { threadsPerBlock := 2, multiprocessors := 1 }

def pairInput : Placed (Vector UInt8 2) := ⟨#[#v[2, 1], #v[4, 3]], 0⟩

def pairStore : Store (Vector UInt8 2) := ⟨#[#v[0, 0], #v[0, 0]], .start 2⟩

/-- Both numbers are kept. -/
def pairFlags : View Nat := stencilFlags #[(), ()] (.ofValue fun _ => true) 2

def pairTask : Task (Vector UInt8 2) :=
  ⟨.raw 2, pairInput, #[2], BlockCopy.destination (.raw 2) pairStore.output 0, .even 2 1⟩

/-- What the writing launch finds. -/
def pairFound : Store (Vector UInt8 2) :=
  ⟨pairStore.output, (offsets List.range pairConfig pairFlags (.even 2 1) pairStore.journal).2⟩

/-- Turns that bring the block to its end. -/
def pairTurns : List (Nat × Nat) := (0, 0) :: (List.replicate 24 [(0, 0), (0, 1)]).flatten

theorem arrives_pair : Arrives (.ofConfig pairConfig) pairConfig (.raw 2) pairInput pairFlags 0 pairStore
    pairTask pairFound := by
  have hcut : Decomposition.forLaunch pairConfig 2 = .ok (.even 2 1) := by
    unfold Decomposition.forLaunch LaunchConfig.blockLimit
    rw [Word.mul_eq_ok (by decide)]
    have hcount : min (Decomposition.blocksFor 2 pairConfig.width) 10 = 1 := by decide
    exact congrArg (fun count => Except.ok (Decomposition.even 2 count)) hcount
  exact ⟨by decide, rfl, rfl, hcut, Prod.ext (by decide +kernel) rfl, by decide, rfl, rfl⟩

theorem settles_run_pair :
    (Grid.run .parallel (kernel pairFlags pairTask) (pairConfig.geometry 1) pairFound
      pairTurns).isOver = true ∧
    (copyIf pairConfig (.raw 2) pairInput #[(), ()] (.ofValue fun _ => true) 0 pairStore).1 = .ok 2 ∧
    (copyIf pairConfig (.raw 2) pairInput #[(), ()] (.ofValue fun _ => true) 0 pairStore).2.output =
      #[#v[2, 1], #v[4, 3]] := by
  have h : Settles pairTask (flagOf (fun _ _ => true) #[(), ()]) (pairConfig.geometry 1)
      (copyIf pairConfig (.raw 2) pairInput #[(), ()] (.ofValue fun _ => true) 0 pairStore)
      (Grid.run .parallel (kernel pairFlags pairTask) (pairConfig.geometry 1) pairFound)
      (Grid.log .parallel (kernel pairFlags pairTask) (pairConfig.geometry 1) pairFound) pairTurns :=
    settles_run arrives_pair (by decide) (by decide) (by decide) nofun (fun value => ⟨value, rfl⟩)
      Scheduling.parallel.perm_order Scheduling.parallel.perm_order .parallel pairTurns
  have hover : (Grid.run .parallel (kernel pairFlags pairTask) (pairConfig.geometry 1) pairFound
      pairTurns).isOver = true := by decide +kernel
  have houtput : (Grid.run .parallel (kernel pairFlags pairTask) (pairConfig.geometry 1) pairFound
      pairTurns).store.output = #[#v[2, 1], #v[4, 3]] := by decide +kernel
  exact ⟨hover, h.answers, (h.output hover).symm.trans houtput⟩

/-- A slot may be written by more than one lane: both lanes write a byte of the first number. -/
theorem pair_written_by_both :
    Arrives (.ofConfig pairConfig) pairConfig (.raw 2) pairInput pairFlags 0 pairStore pairTask
      pairFound ∧
    (Grid.run .parallel (kernel pairFlags pairTask) (pairConfig.geometry 1) pairFound
      pairTurns).isOver = true ∧
    ¬ ∃ party, ∀ place < 2, Grid.writers (.raw 2) 0 place (Grid.log .parallel
      (kernel pairFlags pairTask) (pairConfig.geometry 1) pairFound pairTurns) = [party] := by
  refine ⟨arrives_pair, by decide +kernel, ?_⟩
  rintro ⟨party, hparty⟩
  have hfirst : Grid.writers (.raw 2) 0 0 (Grid.log .parallel (kernel pairFlags pairTask)
      (pairConfig.geometry 1) pairFound pairTurns) = [(0, 0)] := by decide +kernel
  have hsecond : Grid.writers (.raw 2) 0 1 (Grid.log .parallel (kernel pairFlags pairTask)
      (pairConfig.geometry 1) pairFound pairTurns) = [(0, 1)] := by decide +kernel
  have hsame := (hparty 0 (by decide)).symm.trans hfirst
  rw [← hparty 1 (by decide), hsecond] at hsame
  exact absurd hsame (by decide)

end Compaction

end BlockMachine
