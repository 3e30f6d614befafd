import BlockMachine.Proofs.Interleaving.Writers
import BlockMachine.Proofs.Launch.Alone
import BlockMachine.Proofs.Launch.Segments

/-!
# Launches whose blocks keep out of each other's way

* `Grid.Independent` — the blocks of a launch, and the lanes of a block between two barriers, keep out of each
  other's way in whatever order they run.
* `Grid.Independent.exists_plan` — such a launch has a plan, by which all its lanes come to their normal ends.
* `Grid.WritesApart` — a plan in which no two blocks write the same byte, and no two lanes of a block do so
  between two barriers; `Grid.independent_iff` says that a launch is independent if and only if it has one.
* `Grid.writesApart_of_once` — so it is in a plan that writes each byte at most once.
* `Grid.output_eq` — launches that keep to such a plan leave the same output.
-/

set_option autoImplicit false

namespace BlockMachine

open History

variable {σ α : Type}

/-- Whether two requests write the same byte of the destination. -/
def Request.Overlaps (element : Element α) (request other : Request σ α) : Prop :=
  ∃ slot place, place < element.size ∧ request.piece? element slot place ≠ none ∧
    other.piece? element slot place ≠ none

namespace Grid

/-- Kernels whose blocks, and whose lanes between two barriers, keep out of each other's way in whatever order
they run. -/
structure Independent (kernel : Kernel σ α) (geometry : Geometry) (store : Store α) : Prop where
  /-- The slots of a block can be had. -/
  slots : ∃ slots, kernel.slots geometry.threads = .ok slots
  /-- No lane panics, -/
  calm : ∀ places block lane panic, ¬ (run .parallel kernel geometry store places).Raises
    (Grid.log .parallel kernel geometry store places) block lane panic
  /-- and none comes to its end while another one waits for it. -/
  together : Matched .parallel kernel geometry store
  /-- Between two barriers no lane of a block touches what another one writes, be it a slot or a byte of the
  destination, or asks for an item that another one asks for and whose answers are counted. -/
  lanes : ∀ places block barriers lane other, lane ≠ other →
    ∀ request ∈ Deed.segment barriers
      (own lane (ofBlock block (Grid.log .parallel kernel geometry store places))),
    ∀ request' ∈ Deed.segment barriers
      (own other (ofBlock block (Grid.log .parallel kernel geometry store places))),
      ¬ request.Clashes kernel.callbacks request' ∧ ¬ request.Overlaps kernel.callbacks.element request'
  /-- No two blocks write the same byte or ask for the same item whose answers are counted. -/
  blocks : ∀ places block other, block ≠ other →
    ∀ request ∈ Deed.requests (ofBlock block (Grid.log .parallel kernel geometry store places)),
    ∀ request' ∈ Deed.requests (ofBlock other (Grid.log .parallel kernel geometry store places)),
      ¬ request.Overlaps kernel.callbacks.element request' ∧
        ∀ index, kernel.callbacks.Counts index → request.item? = some index → request'.item? ≠ some index

namespace Independent

variable {kernel : Kernel σ α} {geometry : Geometry} {store : Store α} {places : List (Nat × Nat)} {block : Nat}

/-- **A block that has not begun is peaceful**, whatever the others have done. -/
theorem peaceful (h : Independent kernel geometry store) {slots : Array σ}
    (hslots : kernel.slots geometry.threads = .ok slots) (hblock : block < geometry.blocks)
    (hnone : (run .parallel kernel geometry store places).crew? block = none) :
    (Crew.start slots (kernel.lanes geometry block)).Peaceful kernel.callbacks geometry.threads
      (run .parallel kernel geometry store places).store := by
  have hcrew := fun lanes => ((run_alone hslots hnone hblock lanes).2.1 block).trans (if_pos rfl)
  have hlog := fun lanes => ((run_alone hslots hnone hblock lanes).2.2 block).trans (if_pos rfl)
  have hcalm : ∀ lanes, ((Crew.start slots (kernel.lanes geometry block)).run kernel.callbacks
      (run .parallel kernel geometry store places).store lanes).1.poisoned = false := by
    intro lanes
    obtain ⟨segment, habreast⟩ := abreast_of_crew? (hcrew lanes)
    refine Bool.eq_false_iff.mpr fun hpoisoned => ?_
    obtain ⟨lane, panic, hraises⟩ := habreast.source hpoisoned
    exact h.calm (alone places block lanes) block lane panic ⟨_, hcrew lanes, hraises⟩
  refine ⟨hcalm, fun lanes => h.together _ block _ (hcrew lanes) (hcalm lanes),
    fun lanes lane _ other _ hne segment request hr request' hr' => ?_⟩
  rw [← hlog lanes] at hr hr'
  exact (h.lanes (alone places block lanes) block segment lane other hne request hr request' hr').1

/-- The run of a block that has not begun. -/
theorem exists_runs (h : Independent kernel geometry store) (hthreads : 0 < geometry.threads)
    {slots : Array σ} (hslots : kernel.slots geometry.threads = .ok slots) (hblock : block < geometry.blocks)
    (hnone : (run .parallel kernel geometry store places).crew? block = none) :
    ∃ stages stops, Block.Runs kernel.callbacks geometry.threads
      (fun lane => kernel.program (geometry.context block lane))
      ⟨slots, (run .parallel kernel geometry store places).store.journal.calls⟩ stages stops ∧
      Block.EndWell geometry.threads stops :=
  (h.peaceful hslots hblock hnone).exists_runs hthreads

end Independent

section Alone

variable {kernel : Kernel σ α} {geometry : Geometry} {store : Store α} {places : List (Nat × Nat)} {block : Nat}

/-- A block can make all requests of its run while the others rest. -/
theorem exists_alone {slots : Array σ} (hslots : kernel.slots geometry.threads = .ok slots)
    (hblock : block < geometry.blocks)
    (hnone : (run .parallel kernel geometry store places).crew? block = none) {stages : List (Stage σ α)}
    {stops : Nat → Stop σ α Unit}
    (hruns : Block.Runs kernel.callbacks geometry.threads
      (fun lane => kernel.program (geometry.context block lane))
      ⟨slots, (run .parallel kernel geometry store places).store.journal.calls⟩ stages stops)
    (hends : Block.EndWell geometry.threads stops) :
    ∃ lanes, (Deed.requests (ofBlock block
        (Grid.log .parallel kernel geometry store (alone places block lanes)))).Perm
      (stages.flatMap fun stage => stage.all geometry.threads) := by
  have hstart := Crew.Follows.start hruns (fun _ _ => rfl)
  obtain ⟨lanes, hover⟩ := hstart.exists_run hends
  have hfollows := hstart.run lanes
  rw [List.nil_append] at hfollows
  have hcourse := (hfollows.of_isOver hends hover).1
  obtain ⟨_, _, _, _, _, hwithin⟩ := hfollows
  refine ⟨lanes, ?_⟩
  rw [(run_alone hslots hnone hblock lanes).2.2 block, if_pos rfl]
  exact Deed.requests_perm hwithin.log_lt hcourse

end Alone

namespace Independent

variable {kernel : Kernel σ α} {geometry : Geometry} {store : Store α}

/-- **The blocks of an independent launch have runs that do not meet** at a counted item. -/
theorem not_asked (h : Independent kernel geometry store) (hthreads : 0 < geometry.threads) {slots : Array σ}
    (hslots : kernel.slots geometry.threads = .ok slots) {block other : Nat}
    (hblock : block < geometry.blocks) (hother : other < geometry.blocks) (hne : block ≠ other)
    {stages stages' : List (Stage σ α)} {stops stops' : Nat → Stop σ α Unit}
    (hruns : Block.Runs kernel.callbacks geometry.threads
      (fun lane => kernel.program (geometry.context block lane)) ⟨slots, store.journal.calls⟩ stages stops)
    (hends : Block.EndWell geometry.threads stops)
    (hruns' : Block.Runs kernel.callbacks geometry.threads
      (fun lane => kernel.program (geometry.context other lane)) ⟨slots, store.journal.calls⟩ stages' stops')
    {index : Nat} (hasked : Stage.Asked kernel.callbacks geometry.threads stages index) :
    ∀ stage ∈ stages', ∀ request ∈ stage.all geometry.threads, request.item? ≠ some index := by
  -- one block comes to its end, and then the other one
  have hfresh : (run .parallel kernel geometry store []).crew? block = none := crew?_start ..
  obtain ⟨lanes, hperm⟩ := exists_alone hslots hblock hfresh hruns hends
  obtain ⟨hstore, hcrew, hlog⟩ := run_alone hslots hfresh hblock lanes
  have hnone := (hcrew other).trans (if_neg hne)
  rw [show (run .parallel kernel geometry store []).crew? other = none from crew?_start ..] at hnone
  obtain ⟨later, stops₂, hlater, hends₂⟩ := h.exists_runs hthreads hslots hother hnone
  obtain ⟨lanes', hperm'⟩ := exists_alone hslots hother hnone hlater hends₂
  have hstays : ofBlock block (Grid.log .parallel kernel geometry store
      (alone (alone [] block lanes) other lanes')) =
        ofBlock block (Grid.log .parallel kernel geometry store (alone [] block lanes)) :=
    ((run_alone hslots hnone hother lanes').2.2 block).trans (if_neg (Ne.symm hne))
  have hmeet : ∀ request ∈ stages.flatMap fun stage => stage.all geometry.threads,
      ∀ request' ∈ later.flatMap fun stage => stage.all geometry.threads, ∀ index,
        kernel.callbacks.Counts index → request.item? = some index → request'.item? ≠ some index := by
    intro request hr request' hr'
    refine (h.blocks (alone (alone [] block lanes) other lanes') block other hne request ?_ request'
      (hperm'.mem_iff.mpr hr')).2
    rw [hstays]
    exact hperm.mem_iff.mpr hr
  -- what the first one has asked for makes no difference to the second one
  have hbegins : Block.Runs kernel.callbacks geometry.threads
      (fun lane => kernel.program (geometry.context other lane)) ⟨slots, store.journal.calls⟩ later stops₂ := by
    refine hlater.transport fun stage hstage request hr => ⟨rfl, fun _ _ => rfl, fun place hitem hcounts => ?_⟩
    have hunasked : ∀ asked ∈ Deed.requests (ofBlock block (Grid.log .parallel kernel geometry store
        (alone [] block lanes))), asked.item? ≠ some place := by
      intro asked hin hsame
      exact hmeet asked (hperm.mem_iff.mp hin) request (List.mem_flatMap.mpr ⟨stage, hstage, hr⟩) place hcounts
        hsame hitem
    rw [hlog block, if_pos rfl] at hunasked
    show (run .parallel kernel geometry store (alone [] block lanes)).store.journal.calls[place]? =
      store.journal.calls[place]?
    rw [hstore, Crew.run_store]
    exact Store.getElem?_calls_after kernel.callbacks.element store hunasked
  have hall := hruns'.all_eq hbegins fun _ _ => rfl
  intro stage hstage request hr hitem
  obtain ⟨hcounts, planned, hplanned, request', hr', hitem'⟩ := hasked
  have hmem : stage.all geometry.threads ∈ later.map fun stage => stage.all geometry.threads :=
    hall ▸ List.mem_map_of_mem hstage
  obtain ⟨stage₂, hstage₂, hsame⟩ := List.mem_map.mp hmem
  exact hmeet request' (List.mem_flatMap.mpr ⟨planned, hplanned, hr'⟩) request
    (List.mem_flatMap.mpr ⟨stage₂, hstage₂, hsame.symm ▸ hr⟩) index hcounts hitem' hitem

/-- **An independent launch has a plan**, by which all its lanes come to their normal ends. -/
theorem exists_plan (h : Independent kernel geometry store) (hthreads : 0 < geometry.threads) :
    ∃ plan : Plan kernel geometry store.journal.calls,
      ∀ block < geometry.blocks, Block.EndWell geometry.threads (plan.stops block) := by
  obtain ⟨slots, hslots⟩ := h.slots
  have hall : ∀ block, ∃ stages stops, block < geometry.blocks →
      Block.Runs kernel.callbacks geometry.threads
        (fun lane => kernel.program (geometry.context block lane)) ⟨slots, store.journal.calls⟩ stages stops ∧
      Block.EndWell geometry.threads stops := by
    intro block
    by_cases hblock : block < geometry.blocks
    · have hfresh : (run .parallel kernel geometry store []).crew? block = none := crew?_start ..
      obtain ⟨stages, stops, hruns⟩ := h.exists_runs hthreads hslots hblock hfresh
      exact ⟨stages, stops, fun _ => hruns⟩
    · exact ⟨[], fun _ => .finished (), fun hlt => absurd hlt hblock⟩
  choose stages stops hruns using hall
  refine ⟨⟨slots, stages, stops, hslots, fun block hblock => (hruns block hblock).1, ?_⟩,
    fun block hblock => (hruns block hblock).2⟩
  intro block hblock other hother hne index hasked
  exact h.not_asked hthreads hslots hblock hother hne (hruns block hblock).1 (hruns block hblock).2
    (hruns other hother).1 hasked

end Independent

/-! ## What launches with a plan leave -/

section Plan

variable {kernel : Kernel σ α} {geometry : Geometry} {calls : Array Nat} {plan : Plan kernel geometry calls}
  {grid : Grid σ α} {log : List ((Nat × Nat) × Deed σ α)}

/-- The lanes that do anything are lanes of the grid. -/
theorem Follows.place_lt (h : Follows plan grid log) :
    ∀ entry ∈ log, entry.1.1 < geometry.blocks ∧ entry.1.2 < geometry.threads := by
  rintro ⟨⟨block, lane⟩, deed⟩ hentry
  have hblock := h.log_lt _ hentry
  have hown := mem_ofBlock.mpr hentry
  have hfollows := h.blocks block hblock
  cases hcrew : grid.crew? block with
  | none =>
    rw [hcrew] at hfollows
    rw [hfollows.1] at hown
    cases hown
  | some crew =>
    rw [hcrew] at hfollows
    obtain ⟨_, _, _, _, _, hwithin⟩ := hfollows
    exact ⟨hblock, hwithin.log_lt _ hown⟩

/-- No two blocks of a plan write the same byte, and no two lanes of a block do so between two barriers. -/
structure WritesApart (plan : Plan kernel geometry calls) : Prop where
  lanes : ∀ block < geometry.blocks, ∀ barriers, ∀ lane < geometry.threads, ∀ other < geometry.threads,
    lane ≠ other → ∀ request ∈ Deed.segment barriers (Stage.course (plan.stages block) lane),
      ∀ request' ∈ Deed.segment barriers (Stage.course (plan.stages block) other),
        ¬ request.Overlaps kernel.callbacks.element request'
  blocks : ∀ block < geometry.blocks, ∀ other < geometry.blocks, block ≠ other →
    ∀ request ∈ plan.requests block, ∀ request' ∈ plan.requests other,
      ¬ request.Overlaps kernel.callbacks.element request'

theorem piece?_eq_none_or {element : Element α} {request other : Request σ α}
    (h : ¬ request.Overlaps element other) {slot place : Nat} (hplace : place < element.size) :
    request.piece? element slot place = none ∨ other.piece? element slot place = none := by
  by_contra hsome
  rw [not_or] at hsome
  exact h ⟨slot, place, hplace, hsome.1, hsome.2⟩

/-- Requests that do not overlap with some others leave a byte to them, or the others to these. -/
theorem pieces_eq_nil_or {element : Element α} {requests others : List (Request σ α)}
    (h : ∀ request ∈ requests, ∀ other ∈ others, ¬ request.Overlaps element other) {slot place : Nat}
    (hplace : place < element.size) : Request.pieces element slot place requests = [] ∨
      Request.pieces element slot place others = [] := by
  by_cases hnone : Request.pieces element slot place requests = []
  · exact .inl hnone
  · right
    rw [Request.pieces, List.filterMap_eq_nil_iff, not_forall] at hnone
    obtain ⟨request, hnone⟩ := hnone
    rw [not_forall] at hnone
    obtain ⟨hr, hsome⟩ := hnone
    exact List.filterMap_eq_nil_iff.mpr fun other hother =>
      (piece?_eq_none_or (h request hr other hother) hplace).resolve_left hsome

/-- A byte that only one block writes holds what this block has written there. -/
theorem pieces_ofBlock {element : Element α} {slot place block : Nat}
    (h : ∀ other, other ≠ block →
      Request.pieces element slot place (Deed.requests (ofBlock other log)) = []) :
    Request.pieces element slot place (Deed.requests log) =
      Request.pieces element slot place (Deed.requests (ofBlock block log)) := by
  induction log with
  | nil => rfl
  | cons entry rest ih =>
    have hcons : ∀ other, ofBlock other (entry :: rest) = if entry.1.1 = other then
        (entry.1.2, entry.2) :: ofBlock other rest else ofBlock other rest := fun other => own_cons other _ _
    have hrest : ∀ other, other ≠ block →
        Request.pieces element slot place (Deed.requests (ofBlock other rest)) = [] := by
      intro other hne
      have hall := h other hne
      rw [hcons] at hall
      by_cases he : entry.1.1 = other
      · rw [if_pos he, pieces_requests_cons] at hall
        exact (List.append_eq_nil_iff.mp hall).2
      · rwa [if_neg he] at hall
    rw [pieces_requests_cons, ih hrest, hcons]
    by_cases he : entry.1.1 = block
    · rw [if_pos he, pieces_requests_cons]
    · have hall := h entry.1.1 he
      rw [hcons, if_pos rfl, pieces_requests_cons] at hall
      rw [if_neg he, (List.append_eq_nil_iff.mp hall).1, List.nil_append]

/-- **Launches that keep to such a plan write the same at a byte.** -/
theorem pieces_eq (hapart : WritesApart plan)
    (hends : ∀ block < geometry.blocks, Block.EndWell geometry.threads (plan.stops block))
    {scheduling scheduling' : Scheduling} {store store' : Store α} (hcalls : store.journal.calls = calls)
    (hcalls' : store'.journal.calls = calls) {places places' : List (Nat × Nat)}
    (hover : (run scheduling kernel geometry store places).isOver = true)
    (hover' : (run scheduling' kernel geometry store' places').isOver = true) {slot place : Nat}
    (hplace : place < kernel.callbacks.element.size) :
    Request.pieces kernel.callbacks.element slot place
        (Deed.requests (Grid.log scheduling kernel geometry store places)) =
      Request.pieces kernel.callbacks.element slot place
        (Deed.requests (Grid.log scheduling' kernel geometry store' places')) := by
  have hfollows := follows_run plan hcalls scheduling places
  have hfollows' := follows_run plan hcalls' scheduling' places'
  obtain ⟨hcourse, hperm, hall⟩ := hfollows.of_isOver hends hover
  obtain ⟨hcourse', hperm', hall'⟩ := hfollows'.of_isOver hends hover'
  by_cases hsome : ∃ block < geometry.blocks,
      Request.pieces kernel.callbacks.element slot place (plan.requests block) ≠ []
  · -- one block writes the byte, and in each of its segments one lane
    obtain ⟨block, hblock, hsome⟩ := hsome
    have hothers : ∀ {log : List ((Nat × Nat) × Deed σ α)}, (∀ entry ∈ log, entry.1.1 < geometry.blocks) →
        (∀ other < geometry.blocks, (Deed.requests (ofBlock other log)).Perm (plan.requests other)) →
        ∀ other, other ≠ block → Request.pieces kernel.callbacks.element slot place
          (Deed.requests (ofBlock other log)) = [] := by
      intro log hlog hperm other hne
      by_cases hother : other < geometry.blocks
      · have hnone := (pieces_eq_nil_or (hapart.blocks block hblock other hother (Ne.symm hne))
          hplace).resolve_left hsome
        rw [← List.perm_nil, ← hnone]
        exact Request.pieces_perm _ _ _ (hperm other hother)
      · refine List.filterMap_eq_nil_iff.mpr fun request hr => ?_
        obtain ⟨lane, hmem⟩ := Deed.mem_requests.mp hr
        exact absurd (hlog _ (mem_ofBlock.mp hmem)) hother
    rw [pieces_ofBlock (hothers hfollows.log_lt hperm), pieces_ofBlock (hothers hfollows'.log_lt hperm')]
    refine Deed.pieces_eq (plan.runs block hblock).lanes_pos (ordered_run ..) (ordered_run ..)
      (fun entry hentry => (hfollows.place_lt _ (mem_ofBlock.mp hentry)).2)
      (fun entry hentry => (hfollows'.place_lt _ (mem_ofBlock.mp hentry)).2)
      (fun lane hlane => (hcourse block hblock lane hlane).trans (hcourse' block hblock lane hlane).symm)
      fun barriers lane hlane other hother hne => ?_
    rw [hcourse block hblock lane hlane, hcourse block hblock other hother]
    exact pieces_eq_nil_or (hapart.lanes block hblock barriers lane hlane other hother hne) hplace
  · have hnone : Request.pieces kernel.callbacks.element slot place
        ((List.range geometry.blocks).flatMap plan.requests) = [] := by
      rw [Request.pieces_flatMap, List.flatMap_eq_nil_iff]
      intro block hmem
      by_contra hpieces
      exact hsome ⟨block, List.mem_range.mp hmem, hpieces⟩
    have hempty : ∀ {requests : List (Request σ α)},
        requests.Perm ((List.range geometry.blocks).flatMap plan.requests) →
          Request.pieces kernel.callbacks.element slot place requests = [] := by
      intro requests hperm
      rw [← List.perm_nil, ← hnone]
      exact Request.pieces_perm _ _ _ hperm
    rw [hempty hall, hempty hall']

/-- **Launches that keep to such a plan leave the same output.** -/
theorem output_eq (hzero : kernel.callbacks.element.size = 0 → ∀ a b : α, a = b) (hapart : WritesApart plan)
    (hends : ∀ block < geometry.blocks, Block.EndWell geometry.threads (plan.stops block))
    {scheduling scheduling' : Scheduling} {store store' : Store α} (hcalls : store.journal.calls = calls)
    (hcalls' : store'.journal.calls = calls) (houtput : store.output = store'.output)
    {places places' : List (Nat × Nat)}
    (hover : (run scheduling kernel geometry store places).isOver = true)
    (hover' : (run scheduling' kernel geometry store' places').isOver = true) :
    (run scheduling kernel geometry store places).store.output =
      (run scheduling' kernel geometry store' places').store.output := by
  rw [run_store, run_store]
  refine Element.eq_of_content hzero (by rw [Store.size_after, Store.size_after, houtput]) fun slot place hplace => ?_
  rw [Store.content_after _ _ _ hplace, Store.content_after _ _ _ hplace, houtput,
    pieces_eq hapart hends hcalls hcalls' hover hover' hplace]

/-- A part of some requests writes no more pieces than all of them. -/
theorem length_pieces_le {ι : Type} {element : Element α} {slot place : Nat} {items : List ι}
    (requests : ι → List (Request σ α)) {item : ι} (hitem : item ∈ items) :
    (Request.pieces element slot place (requests item)).length ≤
      (Request.pieces element slot place (items.flatMap requests)).length := by
  obtain ⟨front, back, rfl⟩ := List.append_of_mem hitem
  rw [List.flatMap_append, List.flatMap_cons, Request.pieces_append, Request.pieces_append,
    List.length_append, List.length_append]
  omega

/-- If at most one piece is written at a byte, then of two parts of the requests one writes none there. -/
theorem pieces_eq_nil_or_of_flatMap {ι : Type} {element : Element α} {slot place : Nat} {items : List ι}
    {requests : ι → List (Request σ α)}
    (hone : (Request.pieces element slot place (items.flatMap requests)).length ≤ 1) {item other : ι}
    (hitem : item ∈ items) (hother : other ∈ items) (hne : item ≠ other) :
    Request.pieces element slot place (requests item) = [] ∨
      Request.pieces element slot place (requests other) = [] := by
  obtain ⟨front, back, rfl⟩ := List.append_of_mem hitem
  rw [List.flatMap_append, List.flatMap_cons, Request.pieces_append, Request.pieces_append,
    List.length_append, List.length_append] at hone
  have hpart : (Request.pieces element slot place (requests other)).length ≤
      (Request.pieces element slot place (front.flatMap requests)).length +
        (Request.pieces element slot place (back.flatMap requests)).length := by
    rcases List.mem_append.mp hother with hfront | hback
    · exact Nat.le_add_right_of_le (length_pieces_le requests hfront)
    · exact Nat.le_add_left_of_le
        (length_pieces_le requests ((List.mem_cons.mp hback).resolve_left (Ne.symm hne)))
  rw [← List.length_eq_zero_iff, ← List.length_eq_zero_iff]
  omega

theorem not_overlaps_of_pieces {element : Element α} {requests others : List (Request σ α)}
    (h : ∀ slot place, place < element.size → Request.pieces element slot place requests = [] ∨
      Request.pieces element slot place others = []) {request other : Request σ α} (hr : request ∈ requests)
    (hother : other ∈ others) : ¬ request.Overlaps element other := by
  rintro ⟨slot, place, hplace, hpiece, hpiece'⟩
  rcases h slot place hplace with hnone | hnone
  · exact hpiece (List.filterMap_eq_nil_iff.mp hnone request hr)
  · exact hpiece' (List.filterMap_eq_nil_iff.mp hnone other hother)

/-- **Writes are apart in a plan that writes each byte at most once.** -/
theorem writesApart_of_once (plan : Plan kernel geometry calls)
    (hone : ∀ slot place, place < kernel.callbacks.element.size →
      (Request.pieces kernel.callbacks.element slot place
        ((List.range geometry.blocks).flatMap plan.requests)).length ≤ 1) : WritesApart plan := by
  refine ⟨fun block hblock barriers lane hlane other hother hne request hr request' hr' => ?_,
    fun block hblock other hother hne request hr request' hr' => ?_⟩
  · rw [Deed.segment_course] at hr hr'
    cases hget : (plan.stages block)[barriers]? with
    | none =>
      rw [hget] at hr
      cases hr
    | some stage =>
      rw [hget] at hr hr'
      -- the stage is a part of what the block asks, which is a part of all that is asked
      refine not_overlaps_of_pieces (fun slot place hplace => ?_) hr hr'
      have hblockOnce := Nat.le_trans (length_pieces_le plan.requests (List.mem_range.mpr hblock))
        (hone slot place hplace)
      have hstageOnce := Nat.le_trans (length_pieces_le (fun stage : Stage σ α => stage.all geometry.threads)
        (List.mem_of_getElem? hget)) hblockOnce
      exact pieces_eq_nil_or_of_flatMap hstageOnce (List.mem_range.mpr hlane) (List.mem_range.mpr hother) hne
  · exact not_overlaps_of_pieces (fun slot place hplace => pieces_eq_nil_or_of_flatMap (hone slot place hplace)
      (List.mem_range.mpr hblock) (List.mem_range.mpr hother) hne) hr hr'

end Plan

/-! ## Independent launches and their plans -/

/-- No lane waits for one that has ended, in a block that follows a run which ends well. -/
theorem not_parted_of_follows {callbacks : Callbacks σ α} {lanes : Nat} {first : Sight σ}
    {stages : List (Stage σ α)} {stops : Nat → Stop σ α Unit} {crew : Crew σ α Unit} {calls : Array Nat}
    {log : List (Nat × Deed σ α)} (h : Crew.Follows callbacks lanes first stages stops crew calls log)
    (hends : Block.EndWell lanes stops) : ¬ crew.Parted := by
  rintro ⟨⟨lane, result, hfinished⟩, other, next, harrived⟩
  obtain ⟨scene, history, _, _, hruns, hwithin⟩ := h
  have hlt : ∀ {lane : Nat} {station : Station σ α Unit}, crew.stations[lane]? = some station → lane < lanes :=
    fun hs => hwithin.length ▸ (List.getElem?_eq_some_iff.mp hs).1
  have hplace : ∀ {lane : Nat} {station : Station σ α Unit}, crew.stations[lane]? = some station →
      scene.Places lane station history log := by
    intro lane station hs
    obtain ⟨station', hs', hplace⟩ := hwithin.places lane (hlt hs)
    rwa [Option.some.inj (hs.symm.trans hs')]
  rcases Crew.ends_of_runs hruns with ⟨_, hstop⟩ | ⟨_, hwait⟩
  · -- in the last stage nobody waits
    obtain ⟨result', hresult⟩ := hends other (hlt harrived)
    obtain ⟨_, _, _, hstanding, _⟩ := hplace harrived
    rw [hstop other (hlt harrived), hresult] at hstanding
    cases hstanding
  · -- and in any other one nobody ends
    obtain ⟨rest, hrest⟩ := hwait lane (hlt hfinished)
    obtain ⟨_, _, _, hstanding, _⟩ := hplace hfinished
    rw [hrest] at hstanding
    cases hstanding

section Iff

variable {kernel : Kernel σ α} {geometry : Geometry} {store : Store α}

/-- The lanes of a launch whose plan ends well wait for each other. -/
theorem matched_of_plan {calls : Array Nat} (plan : Plan kernel geometry calls)
    (hends : ∀ block < geometry.blocks, Block.EndWell geometry.threads (plan.stops block))
    (hcalls : store.journal.calls = calls) (scheduling : Scheduling) :
    Matched scheduling kernel geometry store := by
  intro places block crew hcrew _
  obtain ⟨hblock, hblockFollows⟩ := (follows_run plan hcalls scheduling places).of_crew? hcrew
  exact not_parted_of_follows hblockFollows (hends block hblock)

/-- **A launch with a plan in which writes are apart is independent.** -/
theorem independent_of_plan (plan : Plan kernel geometry store.journal.calls)
    (hends : ∀ block < geometry.blocks, Block.EndWell geometry.threads (plan.stops block))
    (hapart : WritesApart plan) : Independent kernel geometry store := by
  have hcalls : store.journal.calls = store.journal.calls := rfl
  have hfollows := follows_run plan hcalls .parallel
  refine ⟨⟨plan.slots, plan.slots_eq⟩, ?_, matched_of_plan plan hends hcalls .parallel,
    fun places block barriers lane other hne request hr request' hr' => ?_,
    fun places block other hne request hr request' hr' => ?_⟩
  · rintro places block lane panic ⟨crew, hcrew, hraises⟩
    obtain ⟨hblock, hblockFollows⟩ := (hfollows places).of_crew? hcrew
    obtain ⟨segment, habreast⟩ := abreast_of_crew? hcrew
    exact habreast.calm (Crew.Follows.not_poisoned hblockFollows (hends block hblock)).1 lane panic hraises.1
  · refine ⟨(hfollows places).not_clashes hends hne hr hr', ?_⟩
    obtain ⟨hblock, hlane, stage, hget, hr⟩ := (hfollows places).mem_segment hends hr
    obtain ⟨_, hother, stage', hget', hr'⟩ := (hfollows places).mem_segment hends hr'
    refine hapart.lanes block hblock barriers lane hlane other hother hne request ?_ request' ?_
    · rw [Deed.segment_course, hget]
      exact hr
    · rw [Deed.segment_course, hget']
      exact hr'
  · obtain ⟨lane, hmem⟩ := Deed.mem_requests.mp hr
    obtain ⟨lane', hmem'⟩ := Deed.mem_requests.mp hr'
    obtain ⟨hblock, _, hr⟩ := (hfollows places).mem_plan (mem_ofBlock.mp hmem)
    obtain ⟨hother, _, hr'⟩ := (hfollows places).mem_plan (mem_ofBlock.mp hmem')
    refine ⟨hapart.blocks block hblock other hother hne request hr request' hr', fun index hcounts hitem => ?_⟩
    obtain ⟨stage, hstage, hr⟩ := plan.mem_requests.mp hr
    obtain ⟨stage', hstage', hr'⟩ := plan.mem_requests.mp hr'
    exact plan.apart block hblock other hother hne index ⟨hcounts, stage, hstage, request, hr, hitem⟩ stage'
      hstage' request' hr'

/-- In the plans of an independent launch writes are apart. -/
theorem Independent.writesApart (h : Independent kernel geometry store)
    (plan : Plan kernel geometry store.journal.calls)
    (hends : ∀ block < geometry.blocks, Block.EndWell geometry.threads (plan.stops block)) :
    WritesApart plan := by
  obtain ⟨places, hover⟩ := exists_run_append plan hends rfl .parallel []
  rw [List.nil_append] at hover
  obtain ⟨hcourse, hperm, _⟩ := (follows_run plan rfl .parallel places).of_isOver hends hover
  refine ⟨fun block hblock barriers lane hlane other hother hne request hr request' hr' => ?_,
    fun block hblock other hother hne request hr request' hr' => ?_⟩
  · rw [← hcourse block hblock lane hlane] at hr
    rw [← hcourse block hblock other hother] at hr'
    exact (h.lanes places block barriers lane other hne request hr request' hr').2
  · exact (h.blocks places block other hne request ((hperm block hblock).mem_iff.mpr hr) request'
      ((hperm other hother).mem_iff.mpr hr')).1

/-- **A launch is independent if and only if it has a plan** by which all its lanes come to their normal ends
and in which writes are apart. -/
theorem independent_iff (hthreads : 0 < geometry.threads) : Independent kernel geometry store ↔
    ∃ plan : Plan kernel geometry store.journal.calls,
      (∀ block < geometry.blocks, Block.EndWell geometry.threads (plan.stops block)) ∧ WritesApart plan := by
  constructor
  · intro h
    obtain ⟨plan, hends⟩ := h.exists_plan hthreads
    exact ⟨plan, hends, h.writesApart plan hends⟩
  · rintro ⟨plan, hends, hapart⟩
    exact independent_of_plan plan hends hapart

end Iff

end Grid

end BlockMachine
