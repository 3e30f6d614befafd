import BlockMachine.Compaction
import BlockMachine.Proofs.Reduction.Launch

/-!
# Where the blocks of a compaction write

* `Temporary.allocate_eq` — a request within the limits is granted.
* `Compaction.ends` — the number of selected elements up to the end of each interval.
* `Compaction.offsets_eq` — the counting launch and the scan of its results give these numbers, in any
  order of the blocks.
* `Compaction.firstPlace_ends`, `Compaction.back?_ends` — where a block starts, and how many there are in all.
-/

set_option autoImplicit false

namespace BlockMachine

open BlockScan

namespace Temporary

/-- **A request within the limits is granted**, and nothing is logged. -/
theorem allocate_eq {α : Type} {config : LaunchConfig} {elementSize length : Nat}
    (hbytes : length * elementSize < Word.allocationLimit)
    (hlimit : ∀ limit, config.tempLimit = some limit → length * elementSize ≤ limit.toNat)
    (value : α) (journal : Journal) :
    allocate config elementSize length value journal =
      (.ok (Array.replicate length value), journal) := by
  have hword : ¬ Word.limit ≤ length * elementSize := by
    have hhalf : Word.allocationLimit ≤ Word.limit := by decide
    omega
  have hexceeded : exceeded? config (length * elementSize) = none := by
    unfold exceeded?
    cases hconfig : config.tempLimit with
    | none => rfl
    | some limit => exact if_neg (Nat.not_lt.mpr (hlimit limit hconfig))
  simp [allocate, logged, isRefused, hexceeded, hword, Nat.not_le.mpr hbytes]

/-- What has been granted is within the limits. -/
theorem within_of_allocate {α : Type} {config : LaunchConfig} {elementSize length : Nat} {value : α}
    {journal journal' : Journal} {values : Array α}
    (h : allocate config elementSize length value journal = (.ok values, journal')) :
    length * elementSize < Word.allocationLimit ∧
      ∀ limit, config.tempLimit = some limit → length * elementSize ≤ limit.toNat := by
  unfold allocate at h
  cases hrefused : isRefused config elementSize length with
  | true =>
    simp only [hrefused] at h
    cases h
  | false =>
    simp only [isRefused, Bool.or_eq_false_iff, decide_eq_false_iff_not, Nat.not_le] at hrefused
    refine ⟨hrefused.2, fun limit hlimit => ?_⟩
    have hexceeded := hrefused.1.2
    unfold exceeded? at hexceeded
    rw [hlimit] at hexceeded
    by_cases hlt : limit.toNat < length * elementSize
    · simp [hlt] at hexceeded
    · exact Nat.le_of_not_lt hlt

/-- What has been granted has the length that was asked for. -/
theorem size_of_allocate {α : Type} {config : LaunchConfig} {elementSize length : Nat} {value : α}
    {journal journal' : Journal} {values : Array α}
    (h : allocate config elementSize length value journal = (.ok values, journal')) :
    values.size = length := by
  obtain ⟨hbytes, hlimit⟩ := within_of_allocate h
  rw [allocate_eq hbytes hlimit] at h
  cases h
  exact Array.size_replicate ..

end Temporary

namespace Compaction

/-- The number of selected elements up to the end of each interval, if `items` are the flags. -/
def ends (cut : Decomposition) (items : Nat → Nat) : Array Nat :=
  ((List.range cut.count).map fun block => total items (cut.start (block + 1))).toArray

variable {cut : Decomposition} {items : Nat → Nat}

/-- A block starts behind what the blocks before it select. -/
theorem firstPlace_ends {block : Nat} (hblock : block < cut.count) :
    firstPlace (ends cut items) block = .ok (total items (cut.start block)) := by
  unfold firstPlace
  by_cases hzero : block = 0
  · rw [if_pos hzero, hzero, cut.start_zero, total_zero]
  · have hlast : block - 1 + 1 = block := Nat.sub_add_cancel (Nat.pos_of_ne_zero hzero)
    have hentry : (ends cut items)[block - 1]? = some (total items (cut.start block)) := by
      rw [ends, List.getElem?_toArray, List.getElem?_map, List.getElem?_range (by omega),
        Option.map_some, hlast]
    rw [if_neg hzero, Slots.load, hentry]

/-- The last offset is the number of all selected elements. -/
theorem back?_ends (hcount : 0 < cut.count) :
    (ends cut items).back?.getD 0 = total items cut.total := by
  obtain ⟨blocks, hblocks⟩ := Nat.exists_eq_succ_of_ne_zero (Nat.ne_of_gt hcount)
  have hlast := cut.start_count hcount
  rw [hblocks] at hlast
  rw [ends, hblocks, List.back?_toArray, List.getLast?_map, List.getLast?_range]
  simp [hlast]

/-- The scan of the numbers of the intervals. -/
theorem inPlace_counts {counts : List Nat} (hsum : total items cut.total < Word.limit)
    (hcounts : counts = (List.range cut.count).map fun block =>
      total items (cut.start (block + 1)) - total items (cut.start block)) :
    (HostScan.inPlace Word.add counts).result = .ok () ∧
      (HostScan.inPlace Word.add counts).output.toArray = ends cut items := by
  have hentry : ∀ (block value : Nat), counts[block]? = some value → block < cut.count ∧
      value = total items (cut.start (block + 1)) - total items (cut.start block) := by
    intro block value hvalue
    rw [hcounts, List.getElem?_map] at hvalue
    by_cases hblock : block < cut.count
    · rw [List.getElem?_range hblock] at hvalue
      exact ⟨hblock, (Option.some.inj hvalue).symm⟩
    · rw [List.getElem?_eq_none (by simpa using hblock)] at hvalue
      cases hvalue
  have hlength : counts.length = cut.count := by rw [hcounts, List.length_map, List.length_range]
  have hfirst : ∀ value, counts[0]? = some value → value = total items (cut.start (0 + 1)) := by
    intro value hvalue
    obtain ⟨_, rfl⟩ := hentry 0 value hvalue
    rw [cut.start_zero, total_zero, Nat.sub_zero]
  have hstep : ∀ block value, counts[block + 1]? = some value →
      Word.add (total items (cut.start (block + 1))) value =
        .ok (total items (cut.start (block + 1 + 1))) := by
    intro block value hvalue
    obtain ⟨hblock, rfl⟩ := hentry (block + 1) value hvalue
    have hmono : total items (cut.start (block + 1)) ≤ total items (cut.start (block + 1 + 1)) :=
      total_mono items (cut.start_mono (Nat.le_succ (block + 1)))
    have hstop : total items (cut.start (block + 1 + 1)) ≤ total items cut.total :=
      total_mono items (cut.start_le_total hblock)
    have hadd : total items (cut.start (block + 1)) +
        (total items (cut.start (block + 1 + 1)) - total items (cut.start (block + 1))) =
          total items (cut.start (block + 1 + 1)) := Nat.add_sub_cancel' hmono
    rw [Word.add_eq_ok (by omega), hadd]
  obtain ⟨hresult, houtput⟩ := HostScan.inPlace_of_steps Word.add
    (fun block => total items (cut.start (block + 1))) hfirst hstep
  rw [ends, ← hlength]
  exact ⟨hresult, congrArg List.toArray houtput⟩

/-- Offsets are found only if storage for the counts is granted and the counting launch answers; its journal is
kept. -/
theorem exists_counts {order : Nat → List Nat} {config : LaunchConfig} {flags : View Nat}
    {journal journal' : Journal} {found : Array Nat}
    (h : offsets order config flags cut journal = (.ok found, journal')) :
    ∃ counts early after, Temporary.allocate config 8 cut.count 0 journal = (.ok counts, early) ∧
      Reduction.reduceInOrder order config 0 Word.add flags cut ⟨counts, early⟩ = (.ok (), after) ∧
      journal' = after.journal := by
  rw [offsets_def] at h
  cases hgranted : Temporary.allocate config 8 cut.count 0 journal with
  | mk granted early =>
    rw [hgranted] at h
    cases granted with
    | error failure => cases h
    | ok counts =>
      cases hreduced : Reduction.reduceInOrder order config 0 Word.add flags cut ⟨counts, early⟩ with
      | mk result after =>
        simp only [hreduced] at h
        cases result with
        | error failure => cases h
        | ok _ => exact ⟨counts, early, after, rfl, hreduced, (Prod.mk.inj h).2.symm⟩

/-- **The counting launch and the scan of its results** give the number of selected elements up to the end
of each interval, in any order of the blocks, ask once for each flag, and clone nothing. -/
theorem offsets_eq {order : Nat → List Nat} {config : LaunchConfig} {flags : View Nat}
    {journal : Journal} (hvalid : config.validate = .ok ()) (hlength : flags.length = cut.total)
    (hcut : cut.WithinWord) (hcount : 0 < cut.count)
    (hbytes : cut.count * 8 < Word.allocationLimit)
    (hlimit : ∀ limit, config.tempLimit = some limit → cut.count * 8 ≤ limit.toNat)
    (horder : (order cut.count).Perm (List.range cut.count))
    (hgives : ∀ index < cut.total,
      flags.item index (journal.calls[index]?.getD 0) = .ok (items index))
    (hsum : total items cut.total < Word.limit) :
    ∃ after, offsets order config flags cut journal = (.ok (ends cut items), after) ∧
      Journal.Worked cut.total 1 0 journal after := by
  have hsize : (Array.replicate cut.count 0).size = cut.count := Array.size_replicate ..
  obtain ⟨after, hreduce, hreduced⟩ := Reduction.reduceInOrder_sum 0
    ⟨Array.replicate cut.count 0, journal⟩ hvalid hlength hcut hcount (Nat.le_of_eq hsize.symm) horder
    hgives hsum
  have hoverlap : (Array.replicate cut.count 0).toList.drop cut.count = [] :=
    List.drop_eq_nil_of_le (by simp)
  have hcounts := hreduced.output
  rw [hoverlap, List.append_nil] at hcounts
  obtain ⟨hresult, hscan⟩ := inPlace_counts hsum hcounts
  refine ⟨after.journal, ?_, hreduced.worked⟩
  rw [offsets_def]
  rw [Temporary.allocate_eq hbytes hlimit]
  simp only [hreduce, hresult, hscan]
  rfl

end Compaction

end BlockMachine
