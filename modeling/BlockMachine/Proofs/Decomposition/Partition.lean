import Mathlib.Logic.ExistsUnique
import BlockMachine.Proofs.Decomposition

/-!
# Even partitions

The intervals of a decomposition are an even partition of all indices, and the word has room for all numbers on
the way, but for one decomposition: the largest word as one interval.

* `IsEvenPartition` — intervals that follow each other, take each index once, and do not differ by more than one
  index.
* `Decomposition.WithinWord.intervals_eq` — the intervals of a decomposition, in one list.
* `Decomposition.even_partitions` — they are an even partition, and no other interval is given.
* `Decomposition.Computes`, `Decomposition.Overflows` — all intervals can be worked out, or none of them.
* `Decomposition.withinWord_even_iff` — the word has no room for one interval as long as the largest word.
* `Decomposition.computes_or_overflows` — which of the two holds, also of the decompositions of a launch.
-/

set_option autoImplicit false

namespace BlockMachine

/-- Whether an index is one of an interval. -/
def Interval.Contains (interval : Interval) (index : Nat) : Prop :=
  interval.start ≤ index ∧ index < interval.stop

/-- Intervals that cut `[0, total)` into parts as even as can be, the longer ones first. -/
structure IsEvenPartition (total : Nat) (intervals : List Interval) : Prop where
  first : ∀ interval, intervals[0]? = some interval → interval.start = 0
  follows : ∀ (index : Nat) (interval next : Interval), intervals[index]? = some interval →
    intervals[index + 1]? = some next → next.start = interval.stop
  last : ∀ interval, intervals.getLast? = some interval → interval.stop = total
  nonempty : ∀ interval ∈ intervals, interval.isEmpty = false ∧ interval.start < interval.stop
  even : ∀ interval ∈ intervals,
    interval.length = total / intervals.length ∨ interval.length = total / intervals.length + 1
  falls : intervals.Pairwise fun interval later => later.length ≤ interval.length
  once : 0 < intervals.length → ∀ index < total,
    ∃! block : Nat, ∃ interval, intervals[block]? = some interval ∧ interval.Contains index

namespace Decomposition

variable {cut : Decomposition}

/-! ## All intervals -/

/-- The interval of a block, if there is room for it in the word. -/
def span (cut : Decomposition) (block : Nat) : Interval := ⟨cut.start block, cut.start (block + 1)⟩

theorem length_span (cut : Decomposition) (block : Nat) :
    (cut.span block).length = cut.shortLength + if block < cut.longCount then 1 else 0 := by
  show cut.start (block + 1) - cut.start block = _
  rw [start_succ]
  omega

theorem WithinWord.mapM_interval (hcut : cut.WithinWord) {blocks : List Nat}
    (h : ∀ block ∈ blocks, block < cut.count) : blocks.mapM cut.interval = .ok (blocks.map cut.span) := by
  induction blocks with
  | nil => rfl
  | cons block rest ih =>
    obtain ⟨hblock, hrest⟩ := List.forall_mem_cons.mp h
    rw [List.mapM_cons, hcut.interval_eq hblock, ih hrest]
    rfl

/-- **All intervals of a decomposition** in one list. -/
theorem WithinWord.intervals_eq (hcut : cut.WithinWord) :
    cut.intervals = .ok ((List.range cut.count).map cut.span) :=
  hcut.mapM_interval fun _ hblock => List.mem_range.mp hblock

/-- No interval is given past the last one. -/
theorem interval_of_le {block : Nat} (h : cut.count ≤ block) :
    cut.interval block = .error (.intervalOutOfRange block cut.count) := by
  unfold interval
  rw [if_pos h]
  rfl

theorem getElem?_spans (cut : Decomposition) (block : Nat) :
    ((List.range cut.count).map cut.span)[block]? =
      if block < cut.count then some (cut.span block) else none := by
  rw [List.getElem?_map]
  by_cases h : block < cut.count
  · rw [if_pos h, List.getElem?_range h, Option.map_some]
  · rw [if_neg h, List.getElem?_eq_none (by rw [List.length_range]; omega), Option.map_none]

theorem of_getElem?_spans {block : Nat} {interval : Interval}
    (h : ((List.range cut.count).map cut.span)[block]? = some interval) :
    block < cut.count ∧ interval = cut.span block := by
  rw [getElem?_spans] at h
  split at h
  · next hlt => exact ⟨hlt, (Option.some.inj h).symm⟩
  · cases h

/-- The intervals of a decomposition are an even partition. -/
theorem isEvenPartition_spans (cut : Decomposition) :
    IsEvenPartition cut.total ((List.range cut.count).map cut.span) := by
  have hcount : ((List.range cut.count).map cut.span).length = cut.count := by
    rw [List.length_map, List.length_range]
  refine ⟨?first, ?follows, ?last, ?nonempty, ?even, ?falls, ?once⟩
  case first =>
    intro interval h
    obtain ⟨_, rfl⟩ := of_getElem?_spans h
    exact cut.start_zero
  case follows =>
    intro block interval next h h'
    obtain ⟨_, rfl⟩ := of_getElem?_spans h
    obtain ⟨_, rfl⟩ := of_getElem?_spans h'
    rfl
  case last =>
    intro interval h
    rw [List.getLast?_eq_getElem?, hcount] at h
    obtain ⟨hlt, rfl⟩ := of_getElem?_spans h
    show cut.start (cut.count - 1 + 1) = cut.total
    rw [Nat.sub_add_cancel (by omega), start_count (by omega)]
  case nonempty =>
    intro interval h
    obtain ⟨block, hblock, rfl⟩ := List.mem_map.mp h
    have hlt : (cut.span block).start < (cut.span block).stop := start_lt_succ (List.mem_range.mp hblock)
    exact ⟨beq_false_of_ne (Nat.ne_of_lt hlt), hlt⟩
  case even =>
    intro interval h
    obtain ⟨block, _, rfl⟩ := List.mem_map.mp h
    rw [hcount, length_span, shortLength]
    split
    · exact .inr rfl
    · exact .inl rfl
  case falls =>
    rw [List.pairwise_map]
    refine List.pairwise_lt_range.imp fun {block later} hlt => ?_
    rw [length_span, length_span]
    split <;> split <;> omega
  case once =>
    intro hpos index hindex
    rw [hcount] at hpos
    obtain ⟨block, hblock, hcontains⟩ := exists_block hpos hindex
    refine ⟨block, ⟨cut.span block, by rw [getElem?_spans, if_pos hblock], hcontains⟩, ?_⟩
    rintro other ⟨interval, hother, hcontains'⟩
    obtain ⟨_, rfl⟩ := of_getElem?_spans hother
    exact cut.block_unique hcontains'.1 hcontains'.2 hcontains.1 hcontains.2

/-- **Decompositions are even partitions**, into as many intervals as are wanted and as there are indices for:
these intervals are given, without leaving the word, and no others. -/
theorem even_partitions {total : Nat} (htotal : total + 1 < Word.limit) (wanted : Nat) :
    (even total wanted).count = min wanted total ∧
    ∃ intervals, (even total wanted).intervals = .ok intervals ∧
      intervals.length = (even total wanted).count ∧ IsEvenPartition total intervals ∧
      ∀ index, (even total wanted).interval index =
        intervals[index]?.elim (.error (.intervalOutOfRange index (even total wanted).count)) .ok := by
  have hcut : (even total wanted).WithinWord := .of_total htotal
  refine ⟨rfl, _, hcut.intervals_eq, by rw [List.length_map, List.length_range],
    isEvenPartition_spans (even total wanted), fun index => ?_⟩
  rw [getElem?_spans]
  by_cases h : index < (even total wanted).count
  · rw [if_pos h, hcut.interval_eq h]
    rfl
  · rw [if_neg h, interval_of_le (Nat.le_of_not_lt h)]
    rfl

/-- The largest number of indices that is not the largest word, in five intervals: the first four are longer. -/
theorem even_partitions_largest :
    0xFFFFFFFFFFFFFFFE + 1 < Word.limit ∧ (even 0xFFFFFFFFFFFFFFFE 5).count = 5 ∧
    (even 0xFFFFFFFFFFFFFFFE 5).interval 4 = .ok ⟨0xCCCCCCCCCCCCCCCC, 0xFFFFFFFFFFFFFFFE⟩ ∧
    (even 0xFFFFFFFFFFFFFFFE 5).interval 5 = .error (.intervalOutOfRange 5 5) ∧
    ∃ intervals, (even 0xFFFFFFFFFFFFFFFE 5).intervals = .ok intervals ∧
      IsEvenPartition 0xFFFFFFFFFFFFFFFE intervals := by
  have hlimit : 0xFFFFFFFFFFFFFFFE + 1 < Word.limit := by decide
  obtain ⟨hcount, intervals, hintervals, hlength, heven, hgives⟩ := even_partitions hlimit 5
  refine ⟨hlimit, hcount, rfl, ?_, intervals, hintervals, heven⟩
  rw [hgives 5, List.getElem?_eq_none (by rw [hlength]; decide)]
  rfl

/-! ## Overflow -/

/-- All intervals can be worked out, each alone and one after the other. -/
structure Computes (cut : Decomposition) : Prop where
  each : ∀ index < cut.count, ∃ interval, cut.interval index = .ok interval
  all : ∃ intervals, cut.intervals = .ok intervals

/-- There are intervals, but none can be worked out: a sum leaves the word. -/
structure Overflows (cut : Decomposition) : Prop where
  pos : 0 < cut.count
  each : ∀ index < cut.count, cut.interval index = .error (.overflow .add)
  all : cut.intervals = .error (.overflow .add)

theorem WithinWord.computes (hcut : cut.WithinWord) : cut.Computes :=
  ⟨fun _ h => ⟨_, hcut.interval_eq h⟩, _, hcut.intervals_eq⟩

/-- If the word has no room for the longer intervals then no interval can be worked out. -/
theorem overflows_of_long (hpos : 0 < cut.count) (hlong : ¬ cut.shortLength + 1 < Word.limit) :
    cut.Overflows := by
  have heach : ∀ index < cut.count, cut.interval index = .error (.overflow .add) :=
    fun index h => interval_error hlong h
  refine ⟨hpos, heach, ?_⟩
  obtain ⟨more, hmore⟩ := Nat.exists_eq_succ_of_ne_zero (Nat.ne_of_gt hpos)
  unfold intervals
  rw [hmore, List.range_succ_eq_map, List.mapM_cons, heach 0 hpos]
  rfl

/-- **The word has room for all intervals** unless one of them is as long as the largest word. -/
theorem withinWord_even_iff {total : Nat} (htotal : total < Word.limit) (wanted : Nat) :
    (even total wanted).WithinWord ↔ ¬ (total + 1 = Word.limit ∧ wanted = 1) := by
  have htwo : 2 < Word.limit := by decide
  constructor
  · rintro ⟨_, hlong⟩ ⟨hlast, rfl⟩
    have hshort : (even total 1).shortLength = total := by
      show total / min 1 total = total
      rw [Nat.min_eq_left (by omega), Nat.div_one]
    omega
  · intro hnot
    refine ⟨htotal, ?_⟩
    show total / min wanted total + 1 < Word.limit
    rcases Nat.lt_or_ge 1 (min wanted total) with hmany | hfew
    · -- two intervals or more are at most half as long
      have hhalf : total / min wanted total ≤ total / 2 := Nat.div_le_div_left hmany (by decide)
      omega
    · have hle : total / min wanted total ≤ total := Nat.div_le_self ..
      rcases Nat.lt_or_ge (total + 1) Word.limit with hlt | hge
      · omega
      · -- then no interval is wanted
        have hzero : min wanted total = 0 := by omega
        rw [hzero, Nat.div_zero]
        omega

/-- Whether a decomposition can be worked out. -/
theorem even_computes_or_overflows {total : Nat} (htotal : total < Word.limit) (wanted : Nat) :
    if total + 1 = Word.limit ∧ wanted = 1 then (even total wanted).Overflows
    else (even total wanted).Computes := by
  have hiff := withinWord_even_iff htotal wanted
  split
  · next h =>
    obtain ⟨hlast, rfl⟩ := h
    have hpos : 0 < total := by
      have htwo : 2 < Word.limit := by decide
      omega
    refine overflows_of_long (Nat.lt_min.mpr ⟨Nat.one_pos, hpos⟩) fun hlong => ?_
    exact hiff.mp ⟨htotal, hlong⟩ ⟨hlast, rfl⟩
  · next h => exact (hiff.mpr h).computes

/-- The largest word is one block's work only for blocks as wide. -/
theorem blocksFor_eq_one_iff {n width : Nat} (hn : n + 1 = Word.limit) (hwidth : width < Word.limit) :
    blocksFor n width = 1 ↔ width + 1 = Word.limit := by
  have htwo : 2 < Word.limit := by decide
  unfold blocksFor
  constructor
  · intro h
    have hlt := (Nat.div_lt_iff_lt_mul (show 0 < max width 1 by omega)).mp (h ▸ Nat.one_lt_two)
    omega
  · intro h
    exact Nat.div_eq_of_lt_le (by omega) (by omega)

/-- **Which decompositions can be worked out**: all, but for one interval as long as the largest word.  A launch
comes to it with a limit of one block or with blocks as wide. -/
theorem computes_or_overflows {total : Nat} (htotal : total < Word.limit) (wanted : Nat) :
    (if total + 1 = Word.limit ∧ wanted = 1 then (even total wanted).Overflows
      else (even total wanted).Computes) ∧
    ∀ (config : LaunchConfig) (limit : Nat), config.blockLimit = .ok limit →
      ∃ cut, forLaunch config total = .ok cut ∧
        if total + 1 = Word.limit ∧ (limit = 1 ∨ config.width + 1 = Word.limit ∧ 0 < limit) then cut.Overflows
        else cut.Computes := by
  refine ⟨even_computes_or_overflows htotal wanted, fun config limit hlimit => ?_⟩
  refine ⟨even total (min (blocksFor total config.width) limit), by unfold forLaunch; rw [hlimit]; rfl, ?_⟩
  have hiff : (total + 1 = Word.limit ∧ min (blocksFor total config.width) limit = 1) ↔
      (total + 1 = Word.limit ∧ (limit = 1 ∨ config.width + 1 = Word.limit ∧ 0 < limit)) := by
    refine and_congr_right fun hlast => ?_
    have hone : blocksFor total config.width = 1 ↔ config.width + 1 = Word.limit :=
      blocksFor_eq_one_iff hlast config.threadsPerBlock.toNat_lt
    have hpos : 0 < blocksFor total config.width := by
      have htwo : 2 < Word.limit := by decide
      exact Nat.div_pos (by omega) (by omega)
    rw [← hone]
    omega
  have heven := even_computes_or_overflows htotal (min (blocksFor total config.width) limit)
  simpa only [hiff] using heven

/-- The largest word in one interval overflows and in two it does not; a launch with a limit of one block
overflows too, whatever its width. -/
theorem computes_or_overflows_largest :
    let config : LaunchConfig := { threadsPerBlock := 1, multiprocessors := 1, maxBlocks := some 1 }
    (even 0xFFFFFFFFFFFFFFFF 1).Overflows ∧ (even 0xFFFFFFFFFFFFFFFF 2).Computes ∧
    ∃ cut, forLaunch config 0xFFFFFFFFFFFFFFFF = .ok cut ∧ cut.Overflows := by
  intro config
  have htotal : 0xFFFFFFFFFFFFFFFF < Word.limit := by decide
  have hone := (computes_or_overflows htotal 1).1
  have htwo := (computes_or_overflows htotal 2).1
  have hlimit : config.blockLimit = .ok 1 := rfl
  obtain ⟨cut, hcut, hlaunch⟩ := (computes_or_overflows htotal 1).2 config 1 hlimit
  rw [if_pos (by decide)] at hone hlaunch
  rw [if_neg (by decide)] at htwo
  exact ⟨hone, htwo, cut, hcut, hlaunch⟩

end Decomposition

end BlockMachine
