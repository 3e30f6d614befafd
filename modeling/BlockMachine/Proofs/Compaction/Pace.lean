import BlockMachine.Proofs.Compaction.Barriers
import BlockMachine.Proofs.Compaction.SecondAnswers
import BlockMachine.Proofs.Launch.Pace
import BlockMachine.Proofs.Reduction.Tree
import Mathlib.Data.Nat.Log

/-!
# How many barriers the lanes of the two kernels take

The number follows from the length of an interval and the width of a block.  Lanes that panic take fewer: in
the launch that writes, those that find no room in the output.

* `Compaction.barrierCount`, `Reduction.barrierCount` — the numbers.
* `Compaction.lanes_take_barriers` — every lane that comes to its normal end takes that many, and no lane is
  left behind at a barrier, whatever the caller's code answers.
* `Compaction.uneven_barriers` — two lanes that take different numbers, because one of them finds no room.
-/

set_option autoImplicit false

namespace BlockMachine

open BlockScan

variable {σ α : Type}

namespace Reduction

/-- The barriers that a lane takes in a reduction of an interval. -/
def barrierCount (length width : Nat) : Nat :=
  length / width * (2 + 2 * Nat.clog 2 width) +
    if length % width = 0 then 0 else 2 + 2 * Nat.clog 2 (length % width)

/-- The number of chunks of an interval. -/
theorem chunkCount_eq {width : Nat} (hwidth : 0 < width) (length : Nat) :
    (length + (width - 1)) / width = length / width + if length % width = 0 then 0 else 1 := by
  have hdiv := Nat.div_add_mod length width
  have hmod := Nat.mod_lt length hwidth
  have hsplit : length + (width - 1) = length % width + (width - 1) + width * (length / width) := by omega
  rw [hsplit, Nat.add_mul_div_left _ _ hwidth, Nat.add_comm]
  congr 1
  split
  · next hzero => rw [hzero, Nat.zero_add, Nat.div_eq_of_lt (by omega)]
  · next hpos => rw [Nat.div_eq_iff hwidth]; omega

/-- **The barriers of the chunks of an interval** follow from its length and the width. -/
theorem barriers_chunks {width : Nat} (hwidth : 0 < width) (interval : Interval)
    (hle : interval.start ≤ interval.stop) :
    barriers (chunks interval width) = barrierCount interval.length width := by
  have hdiv := Nat.div_add_mod interval.length width
  have hmod := Nat.mod_lt interval.length hwidth
  have hlength : interval.length = interval.stop - interval.start := rfl
  -- the chunks in front are full
  have hfull : ((List.range (interval.length / width)).map fun turn => 2 * roundCount (min width
      (interval.stop - (interval.start + turn * width))) + 2).sum =
        interval.length / width * (2 + 2 * Nat.clog 2 width) := by
    have hsame : ∀ turn ∈ List.range (interval.length / width), 2 * roundCount (min width
        (interval.stop - (interval.start + turn * width))) + 2 = 2 + 2 * Nat.clog 2 width := by
      intro turn hturn
      have hturns : (turn + 1) * width ≤ interval.length / width * width :=
        Nat.mul_le_mul_right width (List.mem_range.mp hturn)
      rw [Nat.succ_mul] at hturns
      rw [Nat.mul_comm] at hdiv
      rw [Nat.min_eq_left (by omega), roundCount_eq_clog, Nat.add_comm]
    rw [List.map_congr_left hsame, List.map_const', List.length_range, List.sum_replicate, smul_eq_mul]
  unfold barriers chunks
  rw [List.map_map, chunkCount_eq hwidth, barrierCount]
  by_cases hzero : interval.length % width = 0
  · rw [if_pos hzero, if_pos hzero, Nat.add_zero, Nat.add_zero]
    exact hfull
  · have hrest : interval.stop - (interval.start + interval.length / width * width) =
        interval.length % width := by
      rw [Nat.mul_comm] at hdiv
      omega
    rw [if_neg hzero, if_neg hzero, List.range_succ, List.map_append, List.sum_append, List.map_singleton,
      List.sum_singleton]
    refine congrArg₂ (· + ·) hfull ?_
    simp only [Function.comp_apply, hrest]
    rw [Nat.min_eq_right (Nat.le_of_lt hmod), roundCount_eq_clog, Nat.add_comm]

/-- The lanes of a reduction take the barriers of their interval. -/
theorem paced {config : LaunchConfig} (hwidth : 0 < config.width) {cut : Decomposition} {block : Nat}
    (hinterval : cut.interval block = .ok ⟨cut.start block, cut.start (block + 1)⟩) (scheduling : Scheduling)
    (blank : σ) (op : σ → σ → Except Panic σ) (view : View σ) (room : Nat) (store : Store σ) :
    Grid.Paced scheduling (kernel blank op view cut room) (config.geometry cut.count) store block
      (barrierCount (cut.start (block + 1) - cut.start block) config.width) := by
  refine Grid.paced_of_takes (fun lane _ => ?_) scheduling store
  have hcontext : cut.interval ((config.geometry cut.count).context block lane).block = .ok _ := hinterval
  have hbarriers := barriers_chunks hwidth ⟨cut.start block, cut.start (block + 1)⟩
    (cut.start_mono (Nat.le_succ block))
  exact (show barriers (chunks _ config.width) =
    barrierCount (cut.start (block + 1) - cut.start block) config.width from hbarriers) ▸
      takes_program hcontext _

/-- A view and an operator that do not panic give items and totals. -/
theorem exists_items {cut : Decomposition} {view : View σ} {op : σ → σ → Except Panic σ} (blank : σ)
    (calls : Array Nat) {width : Nat} (hwidth : 0 < width)
    (hview : ∀ index < cut.total, ∀ earlier, ∃ item, view.item index earlier = .ok item)
    (hop : ∀ left right, ∃ value, op left right = .ok value) :
    ∃ items totals : Nat → σ,
      (∀ index < cut.total, view.item index (calls[index]?.getD 0) = .ok (items index)) ∧
      ∀ block < cut.count, Folds ⟨view.item, op, Element.cloned 1⟩ items none
        (chunks ⟨cut.start block, cut.start (block + 1)⟩ width) (some (totals block)) := by
  choose combined hcombined using hop
  obtain rfl : op = HostScan.total combined := funext fun left => funext fun right => hcombined left right
  -- each item is asked for once, so that one answer of the view counts
  have hitem : ∀ index, ∃ item, index < cut.total →
      view.item index (calls[index]?.getD 0) = .ok item := by
    intro index
    by_cases hindex : index < cut.total
    · obtain ⟨item, hitem⟩ := hview index hindex (calls[index]?.getD 0)
      exact ⟨item, fun _ => hitem⟩
    · exact ⟨blank, fun h => absurd h hindex⟩
  choose items hitems using hitem
  have hvalues : ∀ index < (Array.ofFn fun index : Fin cut.total => items index).size,
      (Array.ofFn fun index : Fin cut.total => items index)[index]? = some (items index) := by
    intro index hindex
    rw [Array.getElem?_eq_getElem hindex, Array.getElem_ofFn]
  obtain ⟨totals, htotals⟩ := exists_totals combined view hvalues (Array.size_ofFn ..) hwidth
  exact ⟨items, totals, hitems, fun block hblock => (htotals block hblock).1⟩

end Reduction

namespace Compaction

/-- The barriers that a lane takes when it writes an interval. -/
def barrierCount (length width : Nat) : Nat :=
  length / width * (2 + 2 * Nat.clog 2 width) +
    if width ∣ length then 0 else 1 + 2 * Nat.clog 2 width

/-- **The barriers of an interval** follow from its length and the width. -/
theorem barriers_eq (interval : Interval) (hle : interval.start ≤ interval.stop) (width : Nat) :
    barriers interval width = barrierCount interval.length width := by
  have hdiv := Nat.div_add_mod interval.length width
  have hlength : interval.length = interval.stop - interval.start := rfl
  have hrest : interval.start + interval.length / width * width < interval.stop ↔
      ¬ width ∣ interval.length := by
    rw [Nat.dvd_iff_mod_eq_zero]
    rw [Nat.mul_comm] at hdiv
    omega
  unfold barriers barrierCount
  rw [roundCount_eq_clog, Nat.add_comm (2 * Nat.clog 2 width) 2, Nat.add_comm (2 * Nat.clog 2 width) 1]
  congr 1
  by_cases hdvd : width ∣ interval.length
  · rw [if_pos hdvd, if_neg fun h => hrest.mp h hdvd]
  · rw [if_neg hdvd, if_pos (hrest.mpr hdvd)]

/-- The lanes of the launch that writes take the barriers of their interval. -/
theorem paced (config : LaunchConfig) (flags : View Nat) (task : Task α) {block : Nat}
    (hinterval : task.cut.interval block = .ok ⟨task.cut.start block, task.cut.start (block + 1)⟩)
    (scheduling : Scheduling) (store : Store α) :
    Grid.Paced scheduling (kernel flags task) (config.geometry task.cut.count) store block
      (barrierCount (task.cut.start (block + 1) - task.cut.start block) config.width) := by
  refine Grid.paced_of_takes (fun lane _ => ?_) scheduling store
  have hcontext : task.cut.interval ((config.geometry task.cut.count).context block lane).block = .ok _ :=
    hinterval
  have hbarriers := barriers_eq ⟨task.cut.start block, task.cut.start (block + 1)⟩
    (task.cut.start_mono (Nat.le_succ block)) config.width
  exact (show barriers _ config.width =
    barrierCount (task.cut.start (block + 1) - task.cut.start block) config.width from hbarriers) ▸
      takes_program hcontext

/-- **The barriers of the lanes of the two kernels.**  Whatever the caller's code answers or raises, the lanes
that come to their normal end take a number of barriers that follows from the length of their interval and the
width of the block, and nobody waits for a lane that has come to its end.  Nobody panics in a launch that
writes what finds room in the output, nor in a reduction by an operator and of a view that do not panic. -/
theorem lanes_take_barriers {config : LaunchConfig} (hvalid : config.validate = .ok ())
    {cut : Decomposition} (hcut : cut.WithinWord) (scheduling : Scheduling) {block : Nat}
    (hblock : block < cut.count) :
    let length := cut.start (block + 1) - cut.start block
    let geometry := config.geometry cut.count
    (∀ (flags : View Nat) (task : Task α) (store : Store α), task.cut = cut →
      Grid.Paced scheduling (kernel flags task) geometry store block (barrierCount length config.width) ∧
      ∀ counted items : Nat → Nat, Prepared config task counted → (∀ index, items index ≤ 1) →
        (∀ index < cut.total,
          flags.item index (store.journal.calls[index]?.getD 0) = .ok (items index)) →
        total counted (cut.start block) + countIn items (cut.start block) (cut.start (block + 1)) ≤
          task.output.length →
        Grid.Passes scheduling (kernel flags task) geometry store block
          (barrierCount length config.width)) ∧
    (∀ (blank : σ) (op : σ → σ → Except Panic σ) (view : View σ) (room : Nat) (store : Store σ),
      Grid.Paced scheduling (Reduction.kernel blank op view cut room) geometry store block
        (Reduction.barrierCount length config.width) ∧
      (cut.count ≤ room → (∀ index < cut.total, ∀ earlier, ∃ item, view.item index earlier = .ok item) →
        (∀ left right, ∃ value, op left right = .ok value) →
        Grid.Passes scheduling (Reduction.kernel blank op view cut room) geometry store block
          (Reduction.barrierCount length config.width))) := by
  intro length geometry
  obtain ⟨hwidth, _⟩ := LaunchConfig.width_of_validate hvalid
  have hinterval := hcut.interval_eq hblock
  refine ⟨?_, fun blank op view room store => ?_⟩
  · rintro flags task store rfl
    have hpaced := paced config flags task hinterval scheduling store
    refine ⟨hpaced, fun counted items prepared hitems hgives hfits => ?_⟩
    obtain ⟨plan, houtcome⟩ := prepared.exists_plan flags hitems hgives
    exact Grid.passes_of_plan plan rfl hblock ((houtcome block hblock).ends hfits) hpaced
  · have hpaced := Reduction.paced hwidth hinterval scheduling blank op view room store
    refine ⟨hpaced, fun hroom hview hop => ?_⟩
    obtain ⟨items, totals, hitems, hfolds⟩ :=
      Reduction.exists_items blank store.journal.calls hwidth hview hop
    obtain ⟨plan, hdoes⟩ := Reduction.exists_plan_of_withinWord blank hvalid hcut hroom hitems hfolds
    exact Grid.passes_of_plan plan rfl hblock (fun lane _ => ⟨(), (hdoes block hblock).ends lane⟩) hpaced

/-! ## A predicate that wants nothing at first -/

/-- The two numbers of a pair are wanted when they are asked for once more, and then there is room for both. -/
theorem lanes_take_barriers_late :
    Grid.Passes .parallel (kernel lateFlags lateTask) (pairConfig.geometry 1) lateFound 0 4 ∧
    Grid.Passes .parallel (Reduction.kernel 0 (fun left right : Int => .ok (left - right))
      ⟨2, fun index earlier => .ok (index + earlier)⟩ (.even 2 1) 1) (pairConfig.geometry 1)
      ⟨#[0], .start 2⟩ 0 4 := by
  have hcount : barrierCount 2 2 = 4 ∧ Reduction.barrierCount 2 2 = 4 := by decide
  obtain ⟨hwrites, hreduces⟩ := @lanes_take_barriers Int (Vector UInt8 2) pairConfig rfl (.even 2 1)
    (.of_total (by decide)) .parallel 0 (by decide)
  have hfresh : ∀ index < 2, pairStore.journal.calls[index]? = some 0 := by decide
  have hitem : ∀ earlier, ∀ index < 2, lateFlags.item index earlier =
      .ok (flagsAt late #[(), ()] earlier index) :=
    fun earlier index hindex => item_stencilFlags (by decide) hindex fun _ => rfl
  obtain ⟨prepared, hcalls⟩ := arrives_late.prepared (by decide) (by decide) (fun value => ⟨value, rfl⟩)
    Scheduling.parallel.perm_order (flagOf_le _ _) fun index hindex => by
      rw [hfresh index hindex]
      exact hitem 0 index hindex
  refine ⟨hcount.1 ▸ (hwrites lateFlags lateTask lateFound rfl).2 _ (flagsAt late #[(), ()] 1) prepared
    (flagOf_le _ _) (fun index hindex => ?_) (by decide), hcount.2 ▸ (hreduces _ _ _ _ _).2 (by decide)
    (fun _ _ _ => ⟨_, rfl⟩) fun _ _ => ⟨_, rfl⟩⟩
  have hlt : index < 2 := hindex
  rw [hcalls index, hfresh index hlt, if_pos (by exact hlt)]
  exact hitem 1 index hlt

/-- Only the first number is wanted, and only when it is asked for once more. -/
def belated (index earlier : Nat) (_ : Unit) : Bool := index = 0 ∧ earlier ≠ 0

def belatedFlags : View Nat :=
  stencilFlags #[(), ()] (fun index earlier value => .ok (belated index earlier value)) 2

/-- There is no room in the output. -/
def crampedStore : Store (Vector UInt8 2) := ⟨#[], .start 2⟩

def crampedTask : Task (Vector UInt8 2) :=
  ⟨.raw 2, pairInput, #[0], BlockCopy.destination (.raw 2) crampedStore.output 0, .even 2 1⟩

def crampedFound : Store (Vector UInt8 2) :=
  ⟨crampedStore.output, (offsets List.range pairConfig belatedFlags (.even 2 1) crampedStore.journal).2⟩

/-- **Two lanes take different numbers of barriers**: neither the predicate nor a clone panics, and the first
lane has no room for its number. -/
theorem uneven_barriers :
    Arrives (.ofConfig pairConfig) pairConfig (.raw 2) pairInput belatedFlags 0 crampedStore crampedTask
      crampedFound ∧
    (Grid.run .parallel (kernel belatedFlags crampedTask) (pairConfig.geometry 1) crampedFound
      pairTurns).isOver = true ∧
    Grid.arrivals (Grid.log .parallel (kernel belatedFlags crampedTask) (pairConfig.geometry 1) crampedFound
      pairTurns) 0 0 = 3 ∧
    Grid.arrivals (Grid.log .parallel (kernel belatedFlags crampedTask) (pairConfig.geometry 1) crampedFound
      pairTurns) 0 1 = 4 :=
  ⟨⟨by decide, rfl, rfl, arrives_pair.cut, Prod.ext (by decide +kernel) rfl, by decide, rfl, rfl⟩,
    by decide +kernel, by decide +kernel, by decide +kernel⟩

end Compaction

end BlockMachine
