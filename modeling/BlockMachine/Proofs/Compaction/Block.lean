import BlockMachine.Proofs.Compaction.Chunk
import BlockMachine.Proofs.Decomposition
import BlockMachine.Proofs.Launch.Plan
import BlockMachine.Proofs.Reduction.Block

/-!
# A block of the writing launch

* `Compaction.MovesChunk`, `Compaction.TakesChunks` — the stages in which the chunks of an interval are moved.
* `Compaction.reaches_ranks` — the lanes lay out the flags of a chunk and come to know their ranks.
* `Compaction.reaches_fullChunk`, `Compaction.runs_fullChunk` — a full chunk is moved, or some lane faults.
* `Compaction.runs_program` — a block ends and has written what its interval selects, or has a fault.
-/

set_option autoImplicit false

namespace BlockMachine

open Request BlockScan

namespace Compaction

variable {α β : Type} {callbacks : Callbacks Nat α} {task : Task α} {items : Nat → Nat}
  {geometry : Geometry} {out base n stop : Nat}

/-! ## The stages of a block -/

/-- The lanes of a stage neither write nor clone nor log anything. -/
def Idle (threads : Nat) (stage : Stage Nat α) : Prop :=
  ∀ lane < threads, ∀ request ∈ stage lane, request.Silent ∧ request.cloned? = none ∧ request.noted? = none

/-- The stage in which the lanes move the selected elements of a chunk, the first of them to slot `out`. -/
inductive MovesChunk (task : Task α) (items : Nat → Nat) (geometry : Geometry) (block out : Nat) :
    Nat × Nat → Stage Nat α → Prop
  | full {base : Nat} (inside : base + geometry.threads ≤ task.input.length)
      (fits : out + total (laneFlag items base geometry.threads) geometry.threads ≤ task.output.length) :
      MovesChunk task items geometry block out (base, geometry.threads)
        (moveStage task items geometry block out base)
  | part {base n : Nat} (short : n < geometry.threads) (inside : base + n ≤ task.input.length)
      (fits : out + total (laneFlag items base n) n ≤ task.output.length) :
      MovesChunk task items geometry block out (base, n) (scatterRequests task items out base n)

/-- The chunks of an interval are moved one after the other, each element behind all that are selected before
it. -/
def TakesChunks (task : Task α) (items : Nat → Nat) (geometry : Geometry) (block start stop : Nat)
    (stages : List (Stage Nat α)) : Prop :=
  Stage.Works (Idle geometry.threads)
    (fun chunk => MovesChunk task items geometry block (total items chunk.1) chunk)
    (Reduction.chunks ⟨start, stop⟩ geometry.threads) stages

/-! ## Ranks -/

/-- What the lanes have done once they know their ranks in a chunk. -/
structure Ranked (items : Nat → Nat) (threads base n : Nat) (stages : List (Stage Nat α))
    (before after : Sight Nat) : Prop where
  size : after.slots.size = before.slots.size
  ranks : ∀ lane < threads, after.slots[lane]? = some (total (laneFlag items base n) (lane + 1))
  asks : AsksEach base (base + n) (stages.flatMap fun stage => stage.all threads)
  silent : ∀ request ∈ stages.flatMap fun stage => stage.all threads, request.Silent
  plain : ∀ request ∈ stages.flatMap fun stage => stage.all threads, request.cloned? = none
  unlogged : ∀ request ∈ stages.flatMap fun stage => stage.all threads, request.noted? = none

section Ranked

variable {threads : Nat} {stages : List (Stage Nat α)} {before after : Sight Nat} {stage : Stage Nat α}

/-- The stages so far are idle. -/
theorem Ranked.idle (h : Ranked items threads base n stages before after) :
    ∀ stage ∈ stages, Idle threads stage := by
  intro stage hstage lane hlane request hr
  have hmem : request ∈ stages.flatMap fun stage => stage.all threads :=
    List.mem_flatMap.mpr ⟨stage, hstage, Stage.mem_all.mpr ⟨lane, hlane, hr⟩⟩
  exact ⟨h.silent request hmem, h.plain request hmem, h.unlogged request hmem⟩

/-- One more stage, which asks for no item. -/
theorem Ranked.asks_append (h : Ranked items threads base n stages before after)
    (hnone : ∀ lane, ∀ request ∈ stage lane, request.item? = none) :
    AsksEach base (base + n) ((stages ++ [stage]).flatMap fun stage => stage.all threads) := by
  rw [List.flatMap_append, List.flatMap_singleton]
  apply h.asks.append_of_no_item (Nat.le_add_right _ _)
  intro request hr
  obtain ⟨lane, _, hr⟩ := Stage.mem_all.mp hr
  exact hnone lane request hr

/-- One more stage, which writes some values. -/
theorem Ranked.writes_append (h : Ranked items threads base n stages before after) {values : List α}
    (hwrites : Writes task.element out values (stage.all threads)) :
    Writes task.element out values ((stages ++ [stage]).flatMap fun stage => stage.all threads) := by
  rw [List.flatMap_append, List.flatMap_singleton]
  exact hwrites.silent_append h.silent

/-- One more stage, which clones only certain values. -/
theorem Ranked.clones_append (h : Ranked items threads base n stages before after) {values : List α}
    (hclones : ∀ lane < threads, ∀ request ∈ stage lane, ∀ value, request.cloned? = some value →
      value ∈ values) :
    ∀ request ∈ (stages ++ [stage]).flatMap fun stage => stage.all threads,
      ∀ value, request.cloned? = some value → value ∈ values := by
  rw [List.flatMap_append, List.flatMap_singleton]
  intro request hr value hvalue
  rcases List.mem_append.mp hr with hr | hr
  · rw [h.plain request hr] at hvalue
    cases hvalue
  · obtain ⟨lane, hlane, hr⟩ := Stage.mem_all.mp hr
    exact hclones lane hlane request hr value hvalue

end Ranked

/-- **The lanes lay out the flags of a chunk and come to know their ranks.** -/
theorem reaches_ranks (setting : Setting callbacks task items geometry.threads) (block : Nat)
    {programs next : Nat → Lane Nat α β} {sight : Sight Nat} {blank : Option Nat}
    (hn : n ≤ geometry.threads) (hblank : n = geometry.threads ∨ blank = some 0)
    (hlast : base + n ≤ task.input.length) (hsize : sight.slots.size = geometry.threads)
    (hlay : ∀ lane < geometry.threads, (programs lane).segment callbacks sight =
      (layStage items base n blank lane, .waiting (do
        scanFirst (geometry.context block lane) geometry.threads geometry.threads
        next lane))) :
    ∃ stages last, Block.Reaches callbacks geometry.threads programs sight stages next last ∧
      Ranked items geometry.threads base n stages sight last := by
  have hroom := setting.room
  have hcount := total_laneFlag_le setting.flags base n geometry.threads
  have hlimit : total (laneFlag items base n) geometry.threads < Word.limit := by omega
  have hholds : Holds geometry.threads (sums (laneFlag items base n)) 0
      (sight.after ((layStage items base n blank : Stage Nat α).all geometry.threads)) := by
    intro lane hlane
    obtain ⟨hin, hout⟩ :=
      slot_after_layStage callbacks items base n blank hlane (hsize.symm ▸ hlane)
    rw [sums_zero, laneFlag]
    by_cases hlt : lane < n
    · rw [if_pos hlt, hin hlt]
    · rw [if_neg hlt]
      exact hout 0 (Nat.le_of_not_lt hlt) (hblank.resolve_left (by omega))
  obtain ⟨last, hscan, hscanned⟩ := reaches_scanFirst (α := α)
    (values_sums setting.combine hlimit) geometry block (Nat.le_refl _) hholds
    (by rw [Sight.size_after, hsize]) (Nat.le_refl _)
  have hlocal : ∀ request ∈ (BlockScan.stages geometry.threads (sums (laneFlag items base n)) 0
      (roundCount geometry.threads) : List (Stage Nat α)).flatMap fun stage =>
        stage.all geometry.threads, request.Local := by
    intro request hr
    obtain ⟨stage, hstage, hr⟩ := List.mem_flatMap.mp hr
    obtain ⟨lane, _, hr⟩ := Stage.mem_all.mp hr
    exact local_of_mem_stages hstage hr
  have hquiet : ∀ request ∈ ((layStage items base n blank : Stage Nat α) ::
      BlockScan.stages geometry.threads (sums (laneFlag items base n)) 0
        (roundCount geometry.threads)).flatMap fun stage => stage.all geometry.threads,
      request.Silent ∧ request.cloned? = none ∧ request.noted? = none := by
    rw [List.flatMap_cons]
    intro request hr
    rcases List.mem_append.mp hr with hr | hr
    · obtain ⟨lane, _, hr⟩ := Stage.mem_all.mp hr
      have hlays := mem_layStage hr
      exact ⟨hlays.silent, hlays.cloned?_eq, hlays.noted?_eq⟩
    · have hkept := hlocal request hr
      exact ⟨hkept.silent, hkept.cloned?_eq, hkept.noted?_eq⟩
  refine ⟨_, last, .pass hlay apart_layStage (hscan.bind fun lane _ => next lane), ?_, ?_, ?_,
    fun request hr => (hquiet request hr).1, fun request hr => (hquiet request hr).2.1,
    fun request hr => (hquiet request hr).2.2⟩
  · rw [hscanned.size, Sight.size_after]
  · intro lane hlane
    rw [hscanned.holds lane hlane, sums_last hlane]
  · rw [List.flatMap_cons]
    exact (asksEach_layStage hn).append_of_no_item (Nat.le_add_right _ _)
      fun request hr => (hlocal request hr).item?_eq

/-- What the lanes have done once they have moved the selected elements of a full chunk. -/
structure Moved (task : Task α) (items : Nat → Nat) (geometry : Geometry) (block out base : Nat)
    (stages : List (Stage Nat α)) (before after : Sight Nat) : Prop where
  size : after.slots.size = before.slots.size
  last : ∃ early stage, stages = early ++ [stage] ∧ (∀ stage ∈ early, Idle geometry.threads stage) ∧
    MovesChunk task items geometry block out (base, geometry.threads) stage
  asks : AsksEach base (base + geometry.threads) (stages.flatMap fun stage => stage.all geometry.threads)
  writes : Writes task.element out (selected items task.input.values base geometry.threads)
    (stages.flatMap fun stage => stage.all geometry.threads)
  clones : ∀ request ∈ stages.flatMap fun stage => stage.all geometry.threads, ∀ value,
    request.cloned? = some value → value ∈ selected items task.input.values base geometry.threads

/-! ## Full chunks -/

section Full

variable (setting : Setting callbacks task items geometry.threads) (block : Nat)

include setting

/-- A lane of a full chunk up to its first barrier. -/
theorem segment_fullChunk (hlast : base + geometry.threads ≤ stop) (hstop : stop ≤ task.input.length)
    {sight : Sight Nat} (hsize : sight.slots.size = geometry.threads)
    (hgives : Gives callbacks items base stop sight.calls) {lane : Nat}
    (hlane : lane < geometry.threads) :
    (fullChunk task (geometry.context block lane) out base).segment callbacks sight =
      (layStage items base geometry.threads none lane, .waiting (do
        scanFirst (geometry.context block lane) geometry.threads geometry.threads
        move task (geometry.context block lane) out base
          (laneFlag items base geometry.threads lane))) := by
  have hroom := setting.room
  have hindex : base + lane < stop := by omega
  have hslot : lane < sight.slots.size := by omega
  apply Lane.Asks.segment_waiting
  unfold layStage laneFlag
  rw [if_pos hlane, if_pos hlane]
  exact asks_lay hgives hindex hslot (by omega) fun index flag => (.barrier (do
    scanFirst (geometry.context block lane) geometry.threads geometry.threads
    let last ← Lane.ofExcept (Word.sub geometry.threads 1)
    let selected ← Lane.load last
    if selected = geometry.threads then do
      let source ← Lane.ofExcept
        (task.input.slice task.element.size base (base + geometry.threads))
      let _ ← BlockCopy.copy task.element (geometry.context block lane) source task.output out
    else if flag ≠ 0 then scatter task (geometry.context block lane) out index
    let outNext ← Lane.ofExcept (Word.add out selected)
    Lane.sync
    return outNext) : Lane Nat α Nat)

/-- **The lanes come to the move of a full chunk.** -/
theorem reaches_move (out : Nat) (hlast : base + geometry.threads ≤ stop) (hstop : stop ≤ task.input.length)
    {sight : Sight Nat} (hsize : sight.slots.size = geometry.threads)
    (hgives : Gives callbacks items base stop sight.calls) :
    ∃ stages last, Block.Reaches callbacks geometry.threads
      (fun lane => fullChunk task (geometry.context block lane) out base) sight stages
      (fun lane => move task (geometry.context block lane) out base
        (laneFlag items base geometry.threads lane)) last ∧
      Ranked items geometry.threads base geometry.threads stages sight last :=
  reaches_ranks setting block (Nat.le_refl _) (.inl rfl) (Nat.le_trans hlast hstop) hsize
    fun _ hlane => segment_fullChunk setting block hlast hstop hsize hgives hlane

/-- What the selected lanes of a full chunk write, if it fits. -/
theorem writes_moveStage (hthreads : 0 < geometry.threads)
    (hlast : base + geometry.threads ≤ task.input.length)
    (hfits : out + total (laneFlag items base geometry.threads) geometry.threads ≤ task.output.length) :
    Writes task.element out (selected items task.input.values base geometry.threads)
      ((moveStage task items geometry block out base).all geometry.threads) := by
  have hloads : ∀ request ∈ (List.range geometry.threads).flatMap fun _ =>
      [(.load (geometry.threads - 1) : Request Nat α)], request.Silent := by
    intro request hr
    obtain ⟨_, _, hr⟩ := List.mem_flatMap.mp hr
    rw [List.mem_singleton.mp hr]
    trivial
  have hsize : task.input.length = task.input.values.size := rfl
  refine Writes.perm (Writes.silent_append hloads ?_) (perm_flatMap_append _ _
    (moveRequests task items geometry block out base)).symm
  unfold moveRequests
  by_cases hfull : total (laneFlag items base geometry.threads) geometry.threads = geometry.threads
  · have hroom : out + geometry.threads ≤ task.output.length := by rwa [hfull] at hfits
    have hflags : total (fun i => items (base + i)) geometry.threads = geometry.threads := by
      rwa [total_laneFlag, Nat.min_self] at hfull
    simp only [hfull, if_true, hroom]
    rw [selected_of_full setting.flags (by omega) hflags, setting.output]
    exact BlockCopy.writes_copy hthreads block (chunkSource task geometry.threads base) out _ _
      fun _ value _ => setting.clone value
  · simp only [hfull, if_false]
    exact writes_scatter setting hlast hfits (Nat.le_refl _)

/-- **A full chunk that fits is moved.** -/
theorem reaches_fullChunk (hthreads : 0 < geometry.threads) (hlast : base + geometry.threads ≤ stop)
    (hstop : stop ≤ task.input.length) (hout : out ≤ base)
    (hfits : out + total (laneFlag items base geometry.threads) geometry.threads ≤ task.output.length)
    {sight : Sight Nat} (hsize : sight.slots.size = geometry.threads)
    (hgives : Gives callbacks items base stop sight.calls) :
    ∃ stages last, Block.Reaches callbacks geometry.threads
      (fun lane => fullChunk task (geometry.context block lane) out base) sight stages
      (fun _ => .done (out + total (laneFlag items base geometry.threads) geometry.threads)) last ∧
      Moved task items geometry block out base stages sight last := by
  obtain ⟨stages, middle, hreaches, hranked⟩ :=
    reaches_move setting block out hlast hstop hsize hgives
  have hmoves : ∀ lane < geometry.threads,
      (move task (geometry.context block lane) out base
        (laneFlag items base geometry.threads lane)).segment callbacks middle =
        (moveStage task items geometry block out base lane, .waiting
          (.done (out + total (laneFlag items base geometry.threads) geometry.threads))) := by
    intro lane hlane
    exact ((asks_move setting block hlane (Nat.le_trans hlast hstop) hout hranked.ranks).free
      (not_blocked_of_fits setting hlane hfits)).segment_waiting
  have hinside := Nat.le_trans hlast hstop
  refine ⟨_, _, hreaches.trans (.one hmoves apart_moveStage), ?_, ?_, ?_, ?_, ?_⟩
  · rw [Sight.size_after, hranked.size]
  · exact ⟨_, _, rfl, hranked.idle, .full hinside hfits⟩
  · exact hranked.asks_append fun _ _ hr => (mem_moveStage hr).2.1
  · exact hranked.writes_append (writes_moveStage setting block hthreads hinside hfits)
  · exact hranked.clones_append fun _ _ _ hr _ => cloned_of_mem_moveStage setting.flags hinside hr

/-- **A full chunk that does not fit** ends with a fault of some lane. -/
theorem runs_fullChunk (hthreads : 0 < geometry.threads) (hlast : base + geometry.threads ≤ stop)
    (hstop : stop ≤ task.input.length) (hout : out ≤ base) (hstart : out ≤ task.output.length)
    (hfits : task.output.length < out + total (laneFlag items base geometry.threads) geometry.threads)
    {sight : Sight Nat} (hsize : sight.slots.size = geometry.threads)
    (hgives : Gives callbacks items base stop sight.calls) (f : Nat → Nat → Lane Nat α β) :
    ∃ stages stops, Block.Runs callbacks geometry.threads
      (fun lane => fullChunk task (geometry.context block lane) out base >>= f lane) sight stages stops ∧
      AsksEach base (base + geometry.threads)
        (stages.flatMap fun stage => stage.all geometry.threads) ∧
      (∀ request ∈ stages.flatMap fun stage => stage.all geometry.threads, ∀ value,
        request.cloned? = some value → value ∈ selected items task.input.values base geometry.threads) ∧
      Block.Faults geometry.threads stops := by
  obtain ⟨stages, middle, hreaches, hranked⟩ :=
    reaches_move setting block out hlast hstop hsize hgives
  have hmoves : ∀ lane < geometry.threads,
      Lane.AsksUnless callbacks (Blocked task items geometry.threads out base lane)
        (move task (geometry.context block lane) out base
          (laneFlag items base geometry.threads lane) >>= f lane) middle
        (moveStage task items geometry block out base lane) _ :=
    fun lane hlane =>
      (asks_move setting block hlane (Nat.le_trans hlast hstop) hout hranked.ranks).bind (f lane)
  obtain ⟨stops, hsegments, _, hblocks⟩ := Block.exists_stops hmoves fun _ _ => rfl
  obtain ⟨faulty, hfaulty, hblocked⟩ := exists_blocked setting hthreads hstart hfits
  obtain ⟨panic, hpanic, hrelease⟩ := hblocks faulty hfaulty hblocked
  refine ⟨_, stops, (hreaches.bind f).runs (.stop hsegments apart_moveStage
    ⟨faulty, hfaulty, by rw [hpanic]; rfl⟩), ?_, ?_, faulty, hfaulty, panic, hpanic, hrelease⟩
  · exact hranked.asks_append fun _ _ hr => (mem_moveStage hr).2.1
  · exact hranked.clones_append fun _ _ _ hr _ =>
      cloned_of_mem_moveStage setting.flags (Nat.le_trans hlast hstop) hr

end Full

/-! ## The last chunk -/

/-- What a block of the writing launch asks and how it ends, if it starts to write at slot `out`. -/
structure Outcome (task : Task α) (items : Nat → Nat) (geometry : Geometry) (block out start stop : Nat)
    (stages : List (Stage Nat α)) (stops : Nat → Stop Nat α β) : Prop where
  within : ∀ request ∈ stages.flatMap fun stage => stage.all geometry.threads, ∀ index,
    request.item? = some index → start ≤ index ∧ index < stop
  ends : out + countIn items start stop ≤ task.output.length → Block.EndWell geometry.threads stops
  /-- If the slots before `out` are for what is selected before the interval then each element goes to its
  own slot. -/
  turns : out = total items start → out + countIn items start stop ≤ task.output.length →
    TakesChunks task items geometry block start stop stages
  asks : out + countIn items start stop ≤ task.output.length →
    AsksEach start stop (stages.flatMap fun stage => stage.all geometry.threads)
  writes : out + countIn items start stop ≤ task.output.length →
    Writes task.element out (selected items task.input.values start (stop - start))
      (stages.flatMap fun stage => stage.all geometry.threads)
  faults : task.output.length < out + countIn items start stop → Block.Faults geometry.threads stops
  clones : ∀ request ∈ stages.flatMap fun stage => stage.all geometry.threads, ∀ value,
    request.cloned? = some value → value ∈ selected items task.input.values start (stop - start)

/-- What a lane does in the last chunk once the flags are scanned. -/
def lastScatter (task : Task α) (context : LaneContext) (out base stop flag : Nat) :
    Lane Nat α Unit :=
  if base + context.lane < stop ∧ flag ≠ 0 then scatter task context out (base + context.lane)
  else pure ()

section Last

variable (setting : Setting callbacks task items geometry.threads) (block : Nat)

include setting

/-- A lane of the last chunk up to its first barrier. -/
theorem segment_lastChunk (out : Nat) (hbase : base < stop) (hstop : stop ≤ task.input.length)
    {sight : Sight Nat} (hsize : sight.slots.size = geometry.threads)
    (hgives : Gives callbacks items base stop sight.calls) {lane : Nat}
    (hlane : lane < geometry.threads) :
    (lastChunk task (geometry.context block lane) out base stop).segment callbacks sight =
      (layStage items base (stop - base) (some 0) lane, .waiting (do
        scanFirst (geometry.context block lane) geometry.threads geometry.threads
        lastScatter task (geometry.context block lane) out base stop
          (laneFlag items base (stop - base) lane))) := by
  have hroom := setting.room
  have hslot : lane < sight.slots.size := by omega
  have hindex : Word.add base lane = .ok (base + lane) := Word.add_eq_ok (by omega)
  have hstore : ∀ (flag : Nat) (calls : Array Nat), Request.answer callbacks
      (.store lane flag : Request Nat α) ⟨sight.slots, calls⟩ = .ok () := fun _ _ => if_pos hslot
  apply Lane.Asks.segment_waiting
  unfold layStage laneFlag
  by_cases hlt : lane < stop - base
  · have hfetch : Request.answer callbacks (.fetch (base + lane) : Request Nat α) sight =
        .ok (items (base + lane)) := hgives _ (Nat.le_add_right _ _) (by omega)
    have hflag : (lastFlag (base + lane) stop : Lane Nat α Nat) = Lane.fetch (base + lane) :=
      if_pos (by omega)
    rw [if_pos hlt, if_pos hlt]
    refine (Lane.asks_ofExcept hindex sight).seq ?_
    rw [hflag]
    exact .one hfetch (.one (hstore _ _) (.none ..))
  · have hflag : (lastFlag (base + lane) stop : Lane Nat α Nat) = .done 0 := if_neg (by omega)
    rw [if_neg hlt, if_neg hlt]
    refine (Lane.asks_ofExcept hindex sight).seq ?_
    rw [hflag]
    exact .one (hstore 0 _) (.none ..)

/-- A lane takes part in the move of the last chunk, unless the place of its element is past the end. -/
theorem asks_lastScatter (hlast : base + n ≤ task.input.length) (hstop : base + n = stop) (hout : out ≤ base)
    {sight : Sight Nat} {lane : Nat}
    (hrank : sight.slots[lane]? = some (total (laneFlag items base n) (lane + 1))) :
    Lane.AsksUnless callbacks (PastEnd task items out base n lane)
      (lastScatter task (geometry.context block lane) out base stop (laneFlag items base n lane)) sight
      (scatterRequests task items out base n lane) (.done ()) := by
  by_cases hflag : laneFlag items base n lane = 0
  · have hnone : scatterRequests task items out base n lane = [] := if_pos hflag
    rw [lastScatter, if_neg fun h => h.2 hflag, hnone]
    exact (Lane.Asks.none ..).unless fun hpast => hpast.1 hflag
  · have hlt : base + lane < stop := by
      have hlane := lt_of_laneFlag_ne_zero hflag
      omega
    rw [lastScatter, if_pos ⟨hlt, hflag⟩]
    exact asks_scatter setting (geometry.context block lane) hlast hout hflag hrank

/-- **The last chunk** is moved, or some lane has a fault. -/
theorem runs_lastChunk (hbase : base < stop) (hstop : stop ≤ task.input.length)
    (hshort : stop - base < geometry.threads) (hout : out ≤ base) (hstart : out ≤ task.output.length)
    {sight : Sight Nat} (hsize : sight.slots.size = geometry.threads)
    (hgives : Gives callbacks items base stop sight.calls) :
    ∃ stages stops, Block.Runs callbacks geometry.threads
      (fun lane => lastChunk task (geometry.context block lane) out base stop) sight stages stops ∧
      Outcome task items geometry block out base stop stages stops := by
  have hend : base + (stop - base) = stop := Nat.add_sub_cancel' (Nat.le_of_lt hbase)
  have hthreads : 0 < geometry.threads := Nat.zero_lt_of_lt hshort
  have hlast : stop - base ≤ geometry.threads := Nat.le_of_lt hshort
  have hcount : total (laneFlag items base (stop - base)) geometry.threads = countIn items base stop := by
    rw [total_laneFlag, Nat.min_eq_right hlast, countIn]
  obtain ⟨stages, middle, hreaches, hranked⟩ := reaches_ranks setting block hlast (.inr rfl)
    (by rw [hend]; exact hstop) hsize
    fun _ hlane => segment_lastChunk setting block out hbase hstop hsize hgives hlane
  have hscatters : ∀ lane < geometry.threads,
      Lane.AsksUnless callbacks (PastEnd task items out base (stop - base) lane)
        (lastScatter task (geometry.context block lane) out base stop
          (laneFlag items base (stop - base) lane)) middle
        (scatterRequests task items out base (stop - base) lane) (.done ()) :=
    fun lane hlane => asks_lastScatter setting block (by rw [hend]; exact hstop) hend hout
      (hranked.ranks lane hlane)
  obtain ⟨stops, hsegments, hfree, hblocks⟩ := Block.exists_stops hscatters fun _ _ => rfl
  have hhalts : (stops 0).next? = none := by
    by_cases hpast : PastEnd task items out base (stop - base) 0
    · obtain ⟨panic, hpanic, _⟩ := hblocks 0 hthreads hpast
      rw [hpanic]
      rfl
    · rw [hfree 0 hthreads hpast]
      rfl
  have hasks : AsksEach base (base + (stop - base)) ((stages ++
      [scatterRequests task items out base (stop - base)]).flatMap fun stage =>
        stage.all geometry.threads) :=
    hranked.asks_append fun _ _ hr => (mem_scatterRequests hr).2.1
  rw [hend] at hasks
  have hinside : base + (stop - base) ≤ task.input.length := by rwa [hend]
  refine ⟨_, stops, hreaches.runs (.stop hsegments apart_scatter ⟨0, hthreads, hhalts⟩), ?_, ?_, ?_, ?_,
    ?_, ?_, ?_⟩
  · exact fun request hr index hindex => hasks.mem_interval hr hindex
  · intro hfits lane hlane
    refine ⟨(), hfree lane hlane ?_⟩
    rintro ⟨hflag, hpast⟩
    have hsucc := total_succ_of_ne_zero setting.flags hflag
    have hmono : total (laneFlag items base (stop - base)) (lane + 1) ≤
        total (laneFlag items base (stop - base)) geometry.threads := total_mono _ hlane
    omega
  · intro hout hfits
    rw [TakesChunks, Reduction.chunks_of_lt hthreads hbase, Nat.min_eq_right hlast,
      Reduction.chunks_of_le hthreads (by omega)]
    refine (Stage.Works.of_idle hranked.idle).append (.work ?_ .nil)
    rw [hout] at hfits ⊢
    exact .part hshort hinside (by rwa [total_laneFlag, Nat.min_self])
  · exact fun _ => hasks
  · intro hfits
    refine hranked.writes_append (writes_scatter setting hinside ?_ hlast)
    rwa [total_laneFlag, Nat.min_self]
  · intro hfits
    obtain ⟨lane, hlane, hflag, hlastLane⟩ := exists_last setting.flags
      (by omega : 0 < total (laneFlag items base (stop - base)) geometry.threads)
    exact ⟨lane, hlane, hblocks lane hlane ⟨hflag, by omega⟩⟩
  · exact hranked.clones_append fun _ _ _ hr _ => cloned_of_mem_scatterRequests hr

end Last

/-! ## The whole block -/

/-- What a lane does after the full chunks. -/
def finishWith (task : Task α) (context : LaneContext) (stop : Nat) (place : Nat × Nat) :
    Lane Nat α Unit :=
  if place.2 < stop then lastChunk task context place.1 place.2 stop else pure ()

/-- A block with nothing left to do. -/
theorem outcome_of_empty {geometry : Geometry} (hthreads : 0 < geometry.threads) (block start : Nat)
    (hstart : out ≤ task.output.length) :
    Outcome task items geometry block out start start [fun _ => []]
      (fun _ => (.finished () : Stop Nat α Unit)) := by
  have hcount : countIn items start start = 0 := by rw [countIn, Nat.sub_self, total_zero]
  have hnone : ([fun _ => []] : List (Stage Nat α)).flatMap (fun stage => stage.all geometry.threads) =
      [] := by
    simp [Stage.all]
  refine ⟨?_, fun _ _ _ => ⟨(), rfl⟩, fun _ _ => ?_, ?_, ?_, fun hfits => ?_, ?_⟩
  · rw [hnone]
    exact fun _ hr => absurd hr List.not_mem_nil
  · rw [TakesChunks, Reduction.chunks_of_le hthreads (Nat.le_refl _)]
    exact .pause (fun _ _ _ hr => absurd hr List.not_mem_nil) .nil
  · rw [hnone]
    exact fun _ => .of_no_item (by simp) start
  · rw [hnone, Nat.sub_self, selected_zero]
    exact fun _ => .of_silent out fun _ hr => absurd hr List.not_mem_nil
  · rw [hcount] at hfits
    omega
  · rw [hnone]
    exact fun _ hr => absurd hr List.not_mem_nil

/-- The elements selected in two parts of an interval. -/
theorem selected_parts {values : Array α} {middle : Nat} (hle : base ≤ middle) (hle' : middle ≤ stop) :
    selected items values base (stop - base) =
      selected items values base (middle - base) ++ selected items values middle (stop - middle) := by
  have hparts : stop - base = (middle - base) + (stop - middle) := by omega
  rw [hparts, selected_add, Nat.add_sub_cancel' hle]

/-- A full chunk before the rest of an interval. -/
theorem Outcome.after_moved {block : Nat} {stages later : List (Stage Nat α)} {before after : Sight Nat}
    {stops : Nat → Stop Nat α Unit} (hflags : ∀ index, items index ≤ 1) (hthreads : 0 < geometry.threads)
    (hmoved : Moved task items geometry block out base stages before after)
    (h : Outcome task items geometry block (out + countIn items base (base + geometry.threads))
      (base + geometry.threads) stop later stops)
    (hlast : base + geometry.threads ≤ stop) (hstop : stop ≤ task.input.length) :
    Outcome task items geometry block out base stop (stages ++ later) stops := by
  have hle : base ≤ base + geometry.threads := Nat.le_add_right ..
  have hcount := countIn_add items hle hlast
  have hparts : selected items task.input.values base (stop - base) = _ := selected_parts hle hlast
  rw [Nat.add_sub_cancel_left] at hparts
  refine ⟨?_, fun hfits => h.ends (by omega), fun hout hfits => ?_, fun hfits => ?_, fun hfits => ?_,
    fun hfits => h.faults (by omega), ?_⟩
  · rw [List.flatMap_append]
    intro request hr index hindex
    rcases List.mem_append.mp hr with hr | hr
    · have hin := hmoved.asks.mem_interval hr hindex
      omega
    · have hin := h.within request hr index hindex
      omega
  · have hrest : out + countIn items base (base + geometry.threads) =
        total items (base + geometry.threads) := by
      rw [hout, total_add_countIn items hle]
    obtain ⟨early, stage, rfl, hidle, hmoves⟩ := hmoved.last
    rw [TakesChunks, Reduction.chunks_of_lt hthreads (by omega), Nat.min_eq_left (by omega)]
    exact ((Stage.Works.of_idle hidle).append (.work (hout ▸ hmoves) .nil)).append
      (h.turns hrest (by omega))
  · rw [List.flatMap_append]
    exact hmoved.asks.append (h.asks (by omega)) hle hlast
  · have hsize : task.input.length = task.input.values.size := rfl
    have hlength : (selected items task.input.values base geometry.threads).length =
        countIn items base (base + geometry.threads) := by
      rw [length_selected hflags (by omega), countIn, Nat.add_sub_cancel_left]
    rw [hparts, List.flatMap_append]
    exact hmoved.writes.append (by rw [hlength]; exact h.writes (by omega))
  · rw [hparts, List.flatMap_append]
    intro request hr value hvalue
    exact List.mem_append.mpr ((List.mem_append.mp hr).imp (hmoved.clones request · value hvalue)
      (h.clones request · value hvalue))

/-- A fault in the first full chunk of an interval. -/
theorem outcome_of_faults {block : Nat} {stages : List (Stage Nat α)} {stops : Nat → Stop Nat α Unit}
    (hfits : task.output.length < out + countIn items base (base + geometry.threads))
    (hasks : AsksEach base (base + geometry.threads)
      (stages.flatMap fun stage => stage.all geometry.threads))
    (hclones : ∀ request ∈ stages.flatMap fun stage => stage.all geometry.threads, ∀ value,
      request.cloned? = some value → value ∈ selected items task.input.values base geometry.threads)
    (hfaults : Block.Faults geometry.threads stops) (hlast : base + geometry.threads ≤ stop) :
    Outcome task items geometry block out base stop stages stops := by
  have hle : base ≤ base + geometry.threads := Nat.le_add_right ..
  have hcount := countIn_add items hle hlast
  refine ⟨fun request hr index hindex => ?_, fun h => absurd hfits (by omega),
    fun _ h => absurd hfits (by omega), fun h => absurd hfits (by omega), fun h => absurd hfits (by omega),
    fun _ => hfaults, fun request hr value hvalue => ?_⟩
  · have hin := hasks.mem_interval hr hindex
    omega
  · rw [selected_parts hle hlast, Nat.add_sub_cancel_left]
    exact List.mem_append_left _ (hclones request hr value hvalue)

section Whole

variable (setting : Setting callbacks task items geometry.threads) (block : Nat)

include setting

/-- A block with at most one chunk left. -/
theorem runs_finishWith (hthreads : 0 < geometry.threads) (hend : base ≤ stop)
    (hstop : stop ≤ task.input.length) (hrest : stop - base < geometry.threads) (hout : out ≤ base)
    (hstart : out ≤ task.output.length) {sight : Sight Nat}
    (hsize : sight.slots.size = geometry.threads)
    (hgives : Gives callbacks items base stop sight.calls) :
    ∃ stages stops, Block.Runs callbacks geometry.threads
      (fun lane => finishWith task (geometry.context block lane) stop (out, base)) sight stages stops ∧
      Outcome task items geometry block out base stop stages stops := by
  by_cases hbase : base < stop
  · have hprograms : (fun lane => finishWith task (geometry.context block lane) stop (out, base)) =
        fun lane => lastChunk task (geometry.context block lane) out base stop :=
      funext fun lane => if_pos hbase
    rw [hprograms]
    exact runs_lastChunk setting block hbase hstop hrest hout hstart hsize hgives
  · obtain rfl : base = stop := Nat.le_antisymm hend (Nat.le_of_not_lt hbase)
    have hprograms : (fun lane => finishWith task (geometry.context block lane) base (out, base)) =
        fun _ => .done () := funext fun lane => if_neg hbase
    rw [hprograms]
    exact ⟨[fun _ => []], _, .stop (fun _ _ => rfl)
      (Stage.apart_of_quiet fun _ _ _ hr => absurd hr List.not_mem_nil) ⟨0, hthreads, rfl⟩,
      outcome_of_empty hthreads block base hstart⟩

/-- **A block goes through the chunks of its interval.** -/
theorem runs_chunks (hthreads : 0 < geometry.threads) (hstop : stop ≤ task.input.length) :
    ∀ {count out base : Nat} {sight : Sight Nat}, base + count * geometry.threads ≤ stop →
      stop - (base + count * geometry.threads) < geometry.threads → out ≤ base →
      out ≤ task.output.length → sight.slots.size = geometry.threads →
      Gives callbacks items base stop sight.calls →
      ∃ stages stops, Block.Runs callbacks geometry.threads
        (fun lane => fullChunks task (geometry.context block lane) count out base >>=
          finishWith task (geometry.context block lane) stop) sight stages stops ∧
        Outcome task items geometry block out base stop stages stops := by
  intro count
  induction count with
  | zero =>
    intro out base sight hend hrest hout hstart hsize hgives
    rw [Nat.zero_mul, Nat.add_zero] at hend hrest
    exact runs_finishWith setting block hthreads hend hstop hrest hout hstart hsize hgives
  | succ count ih =>
    intro out base sight hend hrest hout hstart hsize hgives
    have hsucc : (count + 1) * geometry.threads = geometry.threads + count * geometry.threads := by
      rw [Nat.succ_mul, Nat.add_comm]
    rw [hsucc, ← Nat.add_assoc] at hend hrest
    have hlast : base + geometry.threads ≤ stop := by omega
    have hcount : total (laneFlag items base geometry.threads) geometry.threads =
        countIn items base (base + geometry.threads) := by
      rw [total_laneFlag, Nat.min_self, countIn, Nat.add_sub_cancel_left]
    have hprograms : (fun lane => fullChunks task (geometry.context block lane) (count + 1) out base >>=
        finishWith task (geometry.context block lane) stop) = fun lane =>
          fullChunk task (geometry.context block lane) out base >>= fun out =>
            fullChunks task (geometry.context block lane) count out (base + geometry.threads) >>=
              finishWith task (geometry.context block lane) stop :=
      funext fun lane => Lane.bind_bind ..
    rw [hprograms]
    by_cases hfits : out + total (laneFlag items base geometry.threads) geometry.threads ≤
        task.output.length
    · obtain ⟨stages, middle, hreaches, hmoved⟩ := reaches_fullChunk setting block hthreads hlast hstop
        hout hfits hsize hgives
      have hgives' : Gives callbacks items (base + geometry.threads) stop middle.calls := by
        rw [hreaches.last_eq]
        exact hgives.after hmoved.asks (Nat.le_add_right ..)
      have hrank := total_laneFlag_le setting.flags base geometry.threads geometry.threads
      obtain ⟨later, stops, hruns, houtcome⟩ := ih hend hrest (by omega) hfits
        (hmoved.size.trans hsize) hgives'
      rw [hcount] at houtcome
      exact ⟨_, stops, (hreaches.bind _).runs hruns,
        houtcome.after_moved setting.flags hthreads hmoved hlast hstop⟩
    · rw [hcount] at hfits
      obtain ⟨stages, stops, hruns, hasks, hclones, hfaults⟩ := runs_fullChunk setting block hthreads
        hlast hstop hout hstart (by rw [hcount]; exact Nat.lt_of_not_le hfits) hsize hgives _
      exact ⟨stages, stops, hruns, outcome_of_faults (Nat.lt_of_not_le hfits) hasks hclones hfaults hlast⟩

/-- **A block of the writing launch** ends and has written what its interval selects, if the output can
hold that, and else has a fault. -/
theorem runs_program (hthreads : 0 < geometry.threads) (htotal : task.cut.total = task.input.length)
    (hblock : block < task.cut.count) (hfirst : firstPlace task.offsets block = .ok out)
    (hout : out ≤ task.cut.start block) (hstart : out ≤ task.output.length) {sight : Sight Nat}
    (hsize : sight.slots.size = geometry.threads)
    (hgives : Gives callbacks items (task.cut.start block) (task.cut.start (block + 1)) sight.calls) :
    ∃ stages stops, Block.Runs callbacks geometry.threads
      (fun lane => program task (geometry.context block lane)) sight stages stops ∧
      Outcome task items geometry block out (task.cut.start block) (task.cut.start (block + 1)) stages
        stops := by
  have hroom := setting.room
  have hle : task.cut.start block ≤ task.cut.start (block + 1) := task.cut.start_mono (Nat.le_succ block)
  have hstop : task.cut.start (block + 1) ≤ task.input.length :=
    htotal ▸ Decomposition.start_le_total hblock
  have hdiv := Nat.div_add_mod (task.cut.start (block + 1) - task.cut.start block) geometry.threads
  have hmod := Nat.mod_lt (task.cut.start (block + 1) - task.cut.start block) hthreads
  rw [Nat.mul_comm] at hdiv
  have hprograms : (fun lane => program task (geometry.context block lane)) = fun lane =>
      fullChunks task (geometry.context block lane)
        ((task.cut.start (block + 1) - task.cut.start block) / geometry.threads) out
        (task.cut.start block) >>=
          finishWith task (geometry.context block lane) (task.cut.start (block + 1)) := by
    funext lane
    unfold program
    show (Lane.ofExcept (task.cut.interval block) >>= _) = _
    rw [Decomposition.interval_eq (by omega) hblock]
    show (Lane.ofExcept (firstPlace task.offsets block) >>= _) = _
    rw [hfirst]
    rfl
  rw [hprograms]
  exact runs_chunks setting block hthreads hstop (by omega) (by omega) hout hstart hsize hgives

end Whole

end Compaction

end BlockMachine
