import BlockMachine.Proofs.Compaction.Patched
import BlockMachine.Proofs.Launch.Alarms

/-!
# Elements that are cloned one by one

Elements that do not copy through their bytes are cloned, each by the lane of its own number in the chunk, and
each clone is written behind all elements that are selected before it.  A clone that panics stops its lane, and
the block with it once the other lanes have come to the end of the chunk.

* `Compaction.Delivers` — the lanes of a stage deliver the selected elements of a chunk, which
  `Compaction.MovesChunk.delivers` says of both ways to move one.
* `Compaction.cloneAlarm` — the panic of a selected element.
* `Compaction.Prepared.exists_plan_delivered` — a block takes its chunks up to the first with such a panic, and
  writes `Compaction.Delivered` elements.
-/

set_option autoImplicit false

namespace BlockMachine

open Request BlockScan

/-- The only item of a lane's share, if there is one item for each lane. -/
theorem LaneContext.share_blockSize {context : LaneContext} (hlane : context.lane < context.blockSize) :
    context.share context.blockSize = [context.lane] := by
  have hturns : (context.blockSize - context.lane + (context.blockSize - 1)) / context.blockSize = 1 :=
    Nat.div_eq_of_lt_le (by omega) (by omega)
  simp [share, hturns]

namespace Compaction

variable {α : Type} {task : Task α} {items : Nat → Nat} {geometry : Geometry} {width : Nat}
  {chunk : Nat × Nat} {stage usual : Stage Nat α}

/-! ## Chunks -/

/-- The lanes of a stage deliver the selected elements of a chunk: each lane clones its own element, if that is
selected, and writes the clone behind all elements that are selected before it.  Values without bytes have no
place of their own. -/
def Delivers (task : Task α) (items : Nat → Nat) (width : Nat) (chunk : Nat × Nat) (stage : Stage Nat α) :
    Prop :=
  ∀ lane < width, ∃ early place, (∀ request ∈ early, request.Silent ∧ request.cloned? = none) ∧
    (0 < task.element.size → place = total items (chunk.1 + lane)) ∧
    stage lane = early ++ if lane < chunk.2 ∧ items (chunk.1 + lane) ≠ 0 then
      placeRequests task place (chunk.1 + lane) else []

/-- How many elements are selected before that of a lane. -/
theorem total_add_laneFlag {base n lane : Nat} (hlane : lane ≤ n) :
    total items base + total (laneFlag items base n) lane = total items (base + lane) := by
  rw [total_laneFlag, Nat.min_eq_left hlane, total_add]

theorem delivers_scatter (base n : Nat) :
    Delivers task items width (base, n) (scatterRequests task items (total items base) base n) := by
  intro lane _
  unfold scatterRequests laneFlag
  by_cases hlane : lane < n
  · rw [if_pos hlane]
    by_cases hitem : items (base + lane) = 0
    · exact ⟨[], total items (base + lane), fun _ hr => absurd hr List.not_mem_nil, fun _ => rfl,
        by rw [if_pos hitem, if_neg fun h => h.2 hitem]; rfl⟩
    · refine ⟨[.load lane], _, fun request hr => ?_, fun _ => rfl, ?_⟩
      · rw [List.mem_singleton.mp hr]
        exact ⟨trivial, rfl⟩
      · rw [if_neg hitem, if_pos ⟨hlane, hitem⟩, ← total_add_laneFlag (Nat.le_of_lt hlane)]
        rfl
  · exact ⟨[], total items (base + lane), fun _ hr => absurd hr List.not_mem_nil, fun _ => rfl,
      by rw [if_neg hlane, if_pos rfl, if_neg fun h => hlane h.1]; rfl⟩

/-- One element of a chunk that is copied as a whole. -/
theorem elementRequests_chunk
    (houtput : task.output = .whole task.output.address task.element.size task.output.length)
    {out base lane : Nat} (hlane : lane < width) (hfits : out + width ≤ task.output.length) :
    (BlockCopy.elementRequests task.element (chunkSource task width base) (task.output.dropped out) lane :
      List (Request Nat α)) =
        placeRequests task (out * task.element.size / task.element.size + lane) (base + lane) := by
  have hvalue : (chunkSource task width base).values[lane]? = task.input.values[base + lane]? := by
    by_cases hinside : base + lane < task.input.values.size
    · simp only [chunkSource, Array.getElem?_extract]
      rw [if_pos (by omega)]
    · rw [Array.getElem?_eq_none (by simp only [chunkSource, Array.size_extract]; omega),
        Array.getElem?_eq_none (by omega)]
  have hposition : (task.output.dropped out).position = out * task.element.size := by
    rw [houtput]
    exact Nat.zero_add _
  have hcell : (task.output.dropped out).cell = task.element.size := by
    rw [houtput]
    rfl
  have hroom : out * task.element.size / task.element.size + lane < task.output.length := by
    have hle := Nat.div_le_of_le_mul (Nat.le_of_eq (Nat.mul_comm out task.element.size))
    omega
  unfold BlockCopy.elementRequests placeRequests
  rw [hvalue, hposition, hcell]
  cases task.input.values[base + lane]? with
  | none => rfl
  | some value => cases hclone : task.element.clone value <;> simp [hclone, hroom]

/-- A chunk that is copied as a whole, element by element. -/
theorem delivers_copy (hflags : ∀ index, items index ≤ 1)
    (houtput : task.output = .whole task.output.address task.element.size task.output.length)
    (hby : BlockCopy.ByElement task.element geometry.wideCopy) (block : Nat) {base : Nat}
    (hinside : base + geometry.threads ≤ task.input.length)
    (hfull : total (laneFlag items base geometry.threads) geometry.threads = geometry.threads)
    (hfits : total items base + geometry.threads ≤ task.output.length) :
    Delivers task items geometry.threads (base, geometry.threads) fun lane =>
      .load (geometry.threads - 1) :: BlockCopy.copyRequests task.element (geometry.context block lane)
        (chunkSource task geometry.threads base) (task.output.dropped (total items base)) := by
  intro lane hlane
  have hsize : task.input.length = task.input.values.size := rfl
  have hlength : (chunkSource task geometry.threads base).length = geometry.threads := by
    simp only [Placed.length, chunkSource, Array.size_extract]
    omega
  have hshare : (geometry.context block lane).share geometry.threads = [lane] :=
    LaneContext.share_blockSize (show (geometry.context block lane).lane < _ from hlane)
  have hpath : BlockCopy.choosePath (geometry.context block lane).wideCopy task.element.isTrivial
      (chunkSource task geometry.threads base).address
      (task.output.dropped (total items base)).address = .elementwise :=
    BlockCopy.choosePath_of_byElement hby _ _
  have hplace : 0 < task.element.size →
      total items base * task.element.size / task.element.size + lane = total items (base + lane) := by
    intro hpos
    have hadd : total items base + total (laneFlag items base geometry.threads) lane =
        total items (base + lane) := total_add_laneFlag (Nat.le_of_lt hlane)
    rw [total_laneFlag_of_full hflags hfull (Nat.le_of_lt hlane)] at hadd
    rw [Nat.mul_div_cancel _ hpos, hadd]
  have hselected : lane < geometry.threads ∧ items (base + lane) ≠ 0 :=
    ⟨hlane, item_of_full hflags hfull hlane⟩
  refine ⟨.load (geometry.threads - 1) :: (if lane = 0 then [.note (.bulkCopy ⟨block, geometry.threads,
    .elementwise, (chunkSource task geometry.threads base).address,
    (task.output.dropped (total items base)).address⟩)] else []), _, fun request hr => ?_, hplace, ?_⟩
  · rcases List.mem_cons.mp hr with rfl | hr
    · exact ⟨trivial, rfl⟩
    · split at hr
      · rw [List.mem_singleton.mp hr]
        exact ⟨trivial, rfl⟩
      · cases hr
  · rw [if_pos hselected, ← elementRequests_chunk houtput hlane hfits]
    unfold BlockCopy.copyRequests
    simp only [hpath, BlockCopy.pathRequests, hlength, hshare, List.flatMap_singleton]
    rfl

/-- **The stage that moves a chunk delivers its selected elements**, if they are cloned one by one. -/
theorem MovesChunk.delivers {block : Nat} (hflags : ∀ index, items index ≤ 1)
    (houtput : task.output = .whole task.output.address task.element.size task.output.length)
    (hby : BlockCopy.ByElement task.element geometry.wideCopy)
    (h : MovesChunk task items geometry block (total items chunk.1) chunk stage) :
    Delivers task items geometry.threads chunk stage := by
  obtain ⟨base, n⟩ := chunk
  cases h with
  | part _ inside fits => exact delivers_scatter base n
  | full inside fits =>
    by_cases hfull : total (laneFlag items base geometry.threads) geometry.threads = geometry.threads
    · rw [hfull] at fits
      have hstage : moveStage task items geometry block (total items base) base = fun lane =>
          .load (geometry.threads - 1) :: BlockCopy.copyRequests task.element
            (geometry.context block lane) (chunkSource task geometry.threads base)
            (task.output.dropped (total items base)) := by
        funext lane
        unfold moveStage moveRequests
        rw [if_pos hfull, if_pos fits]
      show Delivers _ _ _ _ (moveStage task items geometry block (total items base) base)
      rw [hstage]
      exact delivers_copy hflags houtput hby block inside hfull fits
    · intro lane hlane
      have hdelivers : Delivers task items geometry.threads (base, geometry.threads) _ :=
        delivers_scatter base geometry.threads
      obtain ⟨early, place, hquiet, hplace, hscatter⟩ := hdelivers lane hlane
      refine ⟨.load (geometry.threads - 1) :: early, place, List.forall_mem_cons.mpr
        ⟨⟨trivial, rfl⟩, hquiet⟩, hplace, ?_⟩
      show .load (geometry.threads - 1) :: moveRequests task items geometry block (total items base)
        base lane = _
      rw [moveRequests, if_neg hfull, hscatter]
      rfl

/-! ## Clones that panic -/

/-- The panic of a request for a clone, if it has one. -/
def refusal (element : Element α) : Request Nat α → Option Panic
  | .clone value => Panic.of? (element.clone value)
  | _ => none

theorem refusal_of_not_cloned (element : Element α) {request : Request Nat α}
    (h : request.cloned? = none) : refusal element request = none := by
  cases request <;> first | rfl | cases h

/-- Clones that panic are refused, and everything else is answered as if no clone panicked. -/
theorem kernel_refuses (task : Task α) (flags : View Nat) :
    (kernel flags task).callbacks.Refuses (kernel flags task.patched).callbacks
      (refusal task.element) := by
  refine ⟨fun request sight hnone => ?_, fun request sight panic hpanic => ?_,
    (kernel_stricter task flags).counts⟩
  · cases request with
    | clone value =>
      show task.element.clone value = .ok ((task.element.clone value).toOption.getD value)
      cases hclone : task.element.clone value with
      | ok copy => rfl
      | error panic =>
        rw [refusal, hclone] at hnone
        cases hnone
    | _ => rfl
  · cases request with
    | clone value => exact Panic.of?_eq_some.mp hpanic
    | _ => cases hpanic

/-- The panic of an element, if that is selected and its clone panics. -/
def cloneAlarm (element : Element α) (items : Nat → Nat) (values : Array α) (index : Nat) : Option Panic :=
  if items index = 0 then none else values[index]?.bind fun value => Panic.of? (element.clone value)

/-- What a lane would ask to deliver an element if its clone did not panic. -/
theorem placeRequests_patched (task : Task α) (place : Nat) {index : Nat} {value : α}
    (hvalue : task.input.values[index]? = some value) :
    placeRequests task.patched place index = .clone value :: if place < task.output.length then
      [.write place ((task.element.clone value).toOption.getD value)] else [] := by
  simp only [placeRequests, Task.patched, Element.patched, hvalue]
  rfl

/-- A lane that delivers an element stops at the panic of its clone, -/
theorem findSome?_placeRequests (task : Task α) (place index : Nat) :
    (placeRequests task.patched place index).findSome? (refusal task.element) =
      task.input.values[index]?.bind fun value => Panic.of? (task.element.clone value) := by
  cases hvalue : task.input.values[index]? with
  | none => simp [placeRequests, Task.patched, hvalue]
  | some value =>
    rw [placeRequests_patched task place hvalue, List.findSome?_cons, Option.bind_some, refusal]
    cases Panic.of? (task.element.clone value) with
    | some panic => rfl
    | none => by_cases hplace : place < task.output.length <;> simp [hplace, refusal]

/-- and otherwise writes the clone. -/
theorem upTo_placeRequests (task : Task α) (place index : Nat) :
    Request.upTo (refusal task.element) (placeRequests task.patched place index) =
      placeRequests task place index := by
  cases hvalue : task.input.values[index]? with
  | none => simp [placeRequests, Task.patched, hvalue, Request.upTo]
  | some value =>
    rw [placeRequests_patched task place hvalue, Request.upTo, refusal, placeRequests, hvalue]
    cases hclone : task.element.clone value with
    | error panic => simp [hclone, Panic.of?]
    | ok copy =>
      simp only [hclone, Panic.of?, Option.isSome_none, Bool.false_eq_true, if_false, Except.toOption,
        Option.getD_some]
      split <;> rfl

/-- The lanes that deliver a chunk stop at the panics of its elements, -/
theorem Delivers.rings (h : Delivers task.patched items width chunk stage) :
    Block.Rings (refusal task.element) width (cloneAlarm task.element items task.input.values) chunk
      stage := by
  intro lane hlane
  obtain ⟨early, place, hquiet, _, hstage⟩ := h lane hlane
  have hearly : early.findSome? (refusal task.element) = none :=
    List.findSome?_eq_none_iff.mpr fun request hr => refusal_of_not_cloned _ (hquiet request hr).2
  rw [hstage, List.findSome?_append, hearly, Option.none_or, cloneAlarm]
  by_cases hchunk : lane < chunk.2
  · rw [if_pos hchunk]
    by_cases hitem : items (chunk.1 + lane) = 0
    · rw [if_neg fun h => h.2 hitem, if_pos hitem]
      rfl
    · rw [if_pos ⟨hchunk, hitem⟩, if_neg hitem]
      exact findSome?_placeRequests task place _
  · rw [if_neg fun h => hchunk h.1, if_neg hchunk]
    rfl

/-- and deliver all others. -/
theorem Delivers.upTo (h : Delivers task.patched items width chunk usual)
    (hstage : ∀ lane < width, stage lane = Request.upTo (refusal task.element) (usual lane)) :
    Delivers task items width chunk stage := by
  intro lane hlane
  obtain ⟨early, place, hquiet, hplace, husual⟩ := h lane hlane
  refine ⟨early, place, hquiet, hplace, ?_⟩
  rw [hstage lane hlane, husual,
    Request.upTo_append fun request hr => refusal_of_not_cloned _ (hquiet request hr).2]
  congr 1
  split
  · exact upTo_placeRequests task place _
  · rfl

/-! ## Blocks -/

/-- A request that writes the clone of a selected element to its slot. -/
structure Hands (task : Task α) (items : Nat → Nat) (index : Nat) (request : Request Nat α) : Prop where
  selected : items index ≠ 0
  written : ∃ value copy, task.input.values[index]? = some value ∧ task.element.clone value = .ok copy ∧
    request = .write (total items index) copy

/-- A lane that delivers an element writes only its clone, -/
theorem silent_or_hands {index : Nat} (hitem : items index ≠ 0) {request : Request Nat α}
    (hr : request ∈ placeRequests task (total items index) index) :
    request.Silent ∨ Hands task items index request := by
  unfold placeRequests at hr
  split at hr
  · cases hr
  · rename_i value hvalue
    split at hr
    · rw [List.mem_singleton.mp hr]
      exact .inl trivial
    · rename_i copy hcopy
      rcases List.mem_cons.mp hr with rfl | hr
      · exact .inl trivial
      · split at hr
        · rw [List.mem_singleton.mp hr]
          exact .inr ⟨hitem, value, copy, hvalue, hcopy, rfl⟩
        · cases hr

/-- and this it does. -/
theorem Hands.mem_placeRequests {index : Nat} {request : Request Nat α} (h : Hands task items index request)
    (hroom : total items index < task.output.length) :
    request ∈ placeRequests task (total items index) index := by
  obtain ⟨value, copy, hvalue, hcopy, rfl⟩ := h.written
  simp [placeRequests, hvalue, hcopy, hroom]

/-- What a block writes that comes to certain elements. -/
structure Delivered (task : Task α) (items : Nat → Nat) (comes : Nat → Prop)
    (requests : List (Request Nat α)) : Prop where
  only : ∀ request ∈ requests, request.Silent ∨ ∃ index, comes index ∧ Hands task items index request
  all : ∀ index, comes index → ∀ request, Hands task items index request → request ∈ requests

/-- A block that takes its chunks up to the first with an alarm. -/
theorem delivered_of_reach {block reached : Nat} {alarm : Nat → Option Panic}
    {broken : List (Stage Nat α)} (hwidth : 0 < width) (hsize : 0 < task.element.size)
    (hroom : ∀ index, items index ≠ 0 → index < task.cut.start (block + 1) →
      total items index < task.output.length)
    (h : Block.Reach (refusal task.element) task.cut width alarm block (Idle width)
      (Delivers task.patched items width) broken reached) :
    Delivered task items (task.cut.ComesTo width (alarm · ≠ none) block)
      (broken.flatMap fun stage => stage.all width) := by
  have hworks : Stage.Works (Idle width)
      (fun turn => Delivers task items width (task.cut.chunkAt width block turn)) (List.range reached)
      broken :=
    h.works.imp (fun _ _ hidle => hidle) fun _ _ _ ⟨_, husual, hstage⟩ => husual.upTo hstage
  refine ⟨fun request hr => ?_, fun index hcomes request hhands => ?_⟩
  · obtain ⟨stage, hstage, hr⟩ := List.mem_flatMap.mp hr
    obtain ⟨lane, hlane, hr⟩ := Stage.mem_all.mp hr
    rcases hworks.idle_or_does hstage with hidle | ⟨turn, hturn, hdelivers⟩
    · exact .inl (hidle lane hlane request hr).1
    · obtain ⟨early, place, hquiet, hplace, hrequests⟩ := hdelivers lane hlane
      rw [hrequests] at hr
      rcases List.mem_append.mp hr with hr | hr
      · exact .inl (hquiet request hr).1
      · split at hr
        · rename_i hselected
          obtain ⟨hle, hlt, hturnOf⟩ := task.cut.of_lane_lt hlane hselected.1
          rw [hplace hsize] at hr
          refine (silent_or_hands hselected.2 hr).imp_right fun hhands => ⟨_, ?_, hhands⟩
          rw [← h.comesTo _ hle hlt, hturnOf]
          exact List.mem_range.mp hturn
        · cases hr
  · obtain ⟨lane, hlane, _, hin, heq⟩ := task.cut.exists_lane hwidth hcomes.start_le hcomes.lt_stop
    have hturn := (h.comesTo _ hcomes.start_le hcomes.lt_stop).mpr hcomes
    obtain ⟨stage, hstage, hdelivers⟩ := hworks.exists_stage (List.mem_range.mpr hturn)
    obtain ⟨early, place, _, hplace, hrequests⟩ := hdelivers lane hlane
    rw [← heq] at hplace hrequests
    rw [hplace hsize, if_pos ⟨hin, hhands.selected⟩] at hrequests
    refine List.mem_flatMap.mpr ⟨stage, hstage, Stage.mem_all.mpr ⟨lane, hlane, ?_⟩⟩
    rw [hrequests]
    exact List.mem_append_right _
      (hhands.mem_placeRequests (hroom index hhands.selected hcomes.lt_stop))

/-- **A block takes its chunks up to the first with a clone that panics**: its lanes stop with the panics of
that chunk, and all other elements so far are written. -/
theorem Prepared.exists_plan_delivered {config : LaunchConfig} {flags : View Nat} {calls : Array Nat}
    (prepared : Prepared config task.patched items) (htrivial : task.element.isTrivial = false)
    (hgives : ∀ index < task.cut.total, flags.item index (calls[index]?.getD 0) = .ok (items index)) :
    let alarm := cloneAlarm task.element items task.input.values
    ∃ plan : Plan (kernel flags task) (config.geometry task.cut.count) calls, ∀ block < task.cut.count,
      Block.Halts task.cut config.width alarm block (plan.stops block) ∧
      (0 < task.element.size → Delivered task items
        (task.cut.ComesTo config.width (alarm · ≠ none) block) (plan.requests block)) := by
  intro alarm
  obtain ⟨hwidth, _⟩ := LaunchConfig.width_of_validate prepared.valid
  have hfits := prepared.fits
  -- what the blocks would do if no clone panicked
  obtain ⟨usual, houtcome⟩ := prepared.exists_plan flags prepared.flags hgives
  have hplan := usual.exists_brokenOff (kernel_refuses task flags) fun block hblock =>
    (houtcome block hblock).ends (hfits block hblock)
  rw [kernel_patched] at hplan
  obtain ⟨plan, hbroken⟩ := hplan
  refine ⟨plan, fun block hblock => ?_⟩
  have hworks : Stage.Works (Idle config.width) (Delivers task.patched items config.width)
      (Reduction.chunks ⟨task.cut.start block, task.cut.start (block + 1)⟩ config.width)
      (usual.stages block) :=
    ((houtcome block hblock).turns rfl (hfits block hblock)).imp (fun _ _ hidle => hidle)
      fun _ _ _ hmoves => hmoves.delivers prepared.flags prepared.output (.inl htrivial)
  obtain ⟨⟨reached, hreach⟩, hhalts⟩ := (hbroken block hblock).reach hwidth
    (fun _ hidle lane hlane request hr => refusal_of_not_cloned _ (hidle lane hlane request hr).2.1)
    (fun _ _ hdelivers => hdelivers.rings) hworks
  refine ⟨hhalts, fun hsize => delivered_of_reach hwidth hsize (fun index hitem hindex => ?_) hreach⟩
  have hstop : task.cut.start (block + 1) ≤ task.cut.total := task.cut.start_le_total hblock
  exact Nat.lt_of_lt_of_le (total_lt hitem (Nat.lt_of_lt_of_le hindex hstop)) prepared.room

end Compaction

end BlockMachine
