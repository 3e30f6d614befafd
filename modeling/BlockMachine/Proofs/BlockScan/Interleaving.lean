import BlockMachine.Proofs.BlockScan.Rounds
import BlockMachine.Proofs.Interleaving.Course

/-!
# Scans within a block, in any order of the lanes

* `BlockScan.reaches_tree` — a scan with an operator that never panics leaves in each slot the value of
  its tree.
* `BlockScan.Combined.take_eq_into` — for an associative operator these are the entries of the scan on
  the host.
* `BlockScan.scans_run` — whatever turns the lanes take, a block that scans is never poisoned, can be
  brought to its end, and has scanned its slots when it is over.
-/

set_option autoImplicit false

namespace BlockMachine

namespace BlockScan

variable {σ α : Type} {callbacks : Callbacks σ α}

/-- What a scan of the first `n` slots leaves in the slots. -/
structure Combined (op : σ → σ → σ) (n : Nat) (before after : Array σ) : Prop where
  size : after.size = before.size
  tree : ∀ i < n, after[i]? = (tree i).value op before
  others : ∀ i, n ≤ i → after[i]? = before[i]?

/-- The values of the slots round by round, for an operator that never panics. -/
theorem values_window {op : σ → σ → σ}
    (hop : ∀ left right, callbacks.combine left right = .ok (op left right)) {n : Nat}
    {slots : Array σ} (hslots : n ≤ slots.size) (blank : σ) :
    Values callbacks n fun k i => ((window k i).value op slots).getD blank := by
  have hvalue : ∀ k i, i < n → ∃ value, (window k i).value op slots = some value := by
    intro k i hi
    apply Expression.exists_value
    intro slot hslot
    rw [leaves_window, List.mem_range'_1] at hslot
    omega
  refine ⟨fun k i hle hi => ?_, fun k i hlt => ?_⟩
  · obtain ⟨left, hleft⟩ := hvalue k (i - distance k) (Nat.lt_of_le_of_lt (Nat.sub_le ..) hi)
    obtain ⟨right, hright⟩ := hvalue k i hi
    rw [window_of_le hle, Expression.value_node hleft hright, hleft, hright]
    exact hop left right
  · show ((window (k + 1) i).value op slots).getD blank = ((window k i).value op slots).getD blank
    rw [window_of_lt hlt]

/-- Before the first round these are the slots. -/
theorem holds_window (op : σ → σ → σ) {n : Nat} {sight : Sight σ} (hslots : n ≤ sight.slots.size)
    (blank : σ) : Holds n (fun k i => ((window k i).value op sight.slots).getD blank) 0 sight := by
  intro i hi
  have hlt : i < sight.slots.size := Nat.lt_of_lt_of_le hi hslots
  simp only [window, Expression.value, Array.getElem?_eq_getElem hlt, Option.getD_some]

/-- **A scan leaves in each slot the value of its tree.** -/
theorem reaches_tree {op : σ → σ → σ}
    (hop : ∀ left right, callbacks.combine left right = .ok (op left right))
    (geometry : Geometry) (block : Nat) {n : Nat} (hn : n ≤ geometry.threads) (sight : Sight σ)
    (hslots : n ≤ sight.slots.size) :
    ∃ stages last, Block.Reaches callbacks geometry.threads
      (fun lane => (scanFirst (geometry.context block lane) sight.slots.size n : Lane σ α Unit))
      sight stages (fun _ => .done ()) last ∧
      (∀ stage ∈ stages, ∀ lane, ∀ request ∈ stage lane, request.Local) ∧
      Combined op n sight.slots last.slots := by
  by_cases hzero : n = 0
  · -- nothing to scan
    subst hzero
    refine ⟨[], sight, ?_, fun _ h => absurd h List.not_mem_nil, rfl,
      fun i hi => absurd hi (Nat.not_lt_zero i), fun _ _ => rfl⟩
    have hprogram : (fun lane => (scanFirst (geometry.context block lane) sight.slots.size 0 :
        Lane σ α Unit)) = fun _ => .done () := by
      funext lane
      rw [scanFirst, if_pos ⟨Nat.zero_le _, Nat.zero_le _⟩]
      rfl
    rw [hprogram]
    exact .here ..
  · have hpos : 0 < sight.slots.size := by omega
    obtain ⟨last, hreaches, hscanned⟩ :=
      reaches_scanFirst (α := α) (values_window hop hslots sight.slots[0]) geometry block hn
        (holds_window op hslots sight.slots[0]) rfl hslots
    refine ⟨_, last, hreaches, fun stage hstage lane request hr => local_of_mem_stages hstage hr,
      hscanned.size, fun i hi => ?_, hscanned.others⟩
    have hlt : i < distance (roundCount n) := Nat.lt_of_lt_of_le hi (le_distance_roundCount n)
    obtain ⟨value, hvalue⟩ := exists_value_tree op (Nat.lt_of_lt_of_le hi hslots)
    have hholds := hscanned.holds i hi
    simp only [window_eq_tree hlt, hvalue, Option.getD_some] at hholds
    rw [hholds, hvalue]

/-- **For an associative operator the first slots are the entries of the scan on the host.** -/
theorem Combined.take_eq_into {op : σ → σ → σ} {n : Nat} {before after : Array σ}
    (h : Combined op n before after) (hn : n ≤ before.size)
    (hassoc : ∀ a b c, op (op a b) c = op a (op b c)) {output : List σ} (houtput : output.length = n) :
    after.toList.take n =
      (HostScan.into (HostScan.total op) (before.toList.take n) output).output := by
  have hlength : (before.toList.take n).length = n := by
    rw [List.length_take, Array.length_toList, Nat.min_eq_left hn]
  obtain ⟨_, hentries⟩ := HostScan.into_spec op (Nat.le_of_eq (hlength.trans houtput.symm))
  apply List.ext_getElem?
  intro i
  rw [hentries i, hlength]
  by_cases hi : i < n
  · rw [if_pos hi, List.getElem?_take_of_lt hi, Array.getElem?_toList, h.tree i hi,
      List.take_take, Nat.min_eq_left hi]
    apply Expression.value_of_assoc hassoc
    rw [leaves_tree]
    apply List.ext_getElem?
    intro j
    rw [List.getElem?_map, List.getElem?_map]
    by_cases hj : j < i + 1
    · have hsize : j < before.size := by omega
      rw [List.getElem?_range hj, List.getElem?_take_of_lt hj, Array.getElem?_toList,
        Array.getElem?_eq_getElem hsize]
      simp only [Option.map_some, Array.getElem?_eq_getElem hsize]
    · rw [List.getElem?_eq_none (by simp; omega), List.getElem?_eq_none (by simp; omega)]
      rfl
  · rw [if_neg hi, List.getElem?_eq_none (by rw [List.length_take]; omega),
      List.getElem?_eq_none (by rw [houtput]; omega)]

/-- A block whose lanes are about to scan the first `n` of its slots. -/
def crew (geometry : Geometry) (block n : Nat) (slots : Array σ) : Crew σ α Unit :=
  Crew.start slots ((List.range geometry.threads).map fun lane =>
    scanFirst (geometry.context block lane) slots.size n)

/-- What holds of a block that scans, and of what it leaves, after some turns of its lanes. -/
structure Scans (callbacks : Callbacks σ α) (op : σ → σ → σ) (threads n : Nat) (slots : Array σ)
    (store : Store α) (reached : Crew σ α Unit × Store α) : Prop where
  /-- No lane unwinds. -/
  well : reached.1.poisoned = false ∧ reached.1.fault = none
  /-- Nothing outside the slots is touched. -/
  store : reached.2 = store
  /-- The block can be brought to its end. -/
  ends : ∃ more, (reached.1.run callbacks reached.2 more).1.isOver = true
  /-- At the end no lane is missing. -/
  finished : reached.1.isOver = true →
    ∀ lane < threads, reached.1.stations[lane]? = some (.finished ())
  /-- At the end each slot has the value of an expression, which hangs on its number alone, over the
  slots up to it as they were at first. -/
  tree : reached.1.isOver = true → ∀ i < n, (tree i).leaves = List.range (i + 1) ∧
    ∃ value, (tree i).value op slots = some value ∧ reached.1.slots[i]? = some value
  others : reached.1.isOver = true → ∀ i, n ≤ i → reached.1.slots[i]? = slots[i]?
  /-- For an associative operator this is the scan on the host, into any list of the right length. -/
  into : reached.1.isOver = true → (∀ a b c, op (op a b) c = op a (op b c)) →
    ∀ output : List σ, output.length = n →
      (HostScan.into (HostScan.total op) (slots.toList.take n) output).result = .ok () ∧
      (HostScan.into (HostScan.total op) (slots.toList.take n) output).output =
        reached.1.slots.toList.take n

/-- **A block scans its slots whatever turns its lanes take**, with any operator that never panics, for
any number of lanes and any number of slots that is not more. -/
theorem scans_run {op : σ → σ → σ}
    (hop : ∀ left right, callbacks.combine left right = .ok (op left right))
    (geometry : Geometry) (block n : Nat) (hthreads : 1 ≤ geometry.threads)
    (hn : n ≤ geometry.threads) (slots : Array σ) (hslots : n ≤ slots.size) (store : Store α)
    (turns : List Nat) :
    Scans callbacks op geometry.threads n slots store
      ((crew geometry block n slots).run callbacks store turns) := by
  obtain ⟨stages, last, hreaches, hlocal, hcombined⟩ :=
    reaches_tree (α := α) hop geometry block hn ⟨slots, store.journal.calls⟩ hslots
  -- after the scan the lanes are at their end
  have hruns : Block.Runs callbacks geometry.threads
      (fun lane => (scanFirst (geometry.context block lane) slots.size n : Lane σ α Unit))
      ⟨slots, store.journal.calls⟩ (stages ++ [fun _ => []]) (fun _ => .finished ()) :=
    hreaches.runs_done hthreads
  have hends : Block.EndWell geometry.threads (fun _ => (.finished () : Stop σ α Unit)) :=
    fun _ _ => ⟨(), rfl⟩
  have hstart : Crew.Follows callbacks geometry.threads ⟨slots, store.journal.calls⟩ _ _
      (crew geometry block n slots) store.journal.calls [] :=
    Crew.Follows.start hruns fun _ _ => rfl
  have hfollows := hstart.run turns
  have hstore : ((crew geometry block n slots).run callbacks store turns).2 = store := by
    rw [Crew.run_store]
    apply Store.after_of_local
    intro request hr
    obtain ⟨lane, hmem⟩ := Deed.mem_requests.mp hr
    obtain ⟨_, stage, hstage, hr⟩ := hfollows.mem_stage hmem
    rcases List.mem_append.mp hstage with hstage | hstage
    · exact hlocal stage hstage lane request hr
    · rw [List.mem_singleton.mp hstage] at hr
      cases hr
  have hlast : last = Sight.after ⟨slots, store.journal.calls⟩
      ((stages ++ [fun _ => []] : List (Stage σ α)).flatMap fun stage => stage.all geometry.threads) := by
    rw [hreaches.last_eq, List.flatMap_append, Sight.after_append, List.flatMap_cons, Stage.all_nil]
    rfl
  have hslots' : ((crew geometry block n slots).run callbacks store turns).1.isOver = true →
      Combined op n slots ((crew geometry block n slots).run callbacks store turns).1.slots := by
    intro hover
    rw [(hfollows.of_isOver hends hover).2.2, ← hlast]
    exact hcombined
  refine ⟨hfollows.not_poisoned hends, hstore, hfollows.exists_run hends, ?_, ?_, ?_, ?_⟩
  · intro hover lane hlane
    obtain ⟨_, hstation, _⟩ := (hfollows.of_isOver hends hover).2.1 lane hlane
    exact hstation
  · intro hover i hi
    obtain ⟨value, hvalue⟩ := exists_value_tree op (Nat.lt_of_lt_of_le hi hslots)
    exact ⟨leaves_tree i, value, hvalue, ((hslots' hover).tree i hi).trans hvalue⟩
  · exact fun hover => (hslots' hover).others
  · intro hover hassoc output houtput
    refine ⟨(HostScan.into_spec op ?_).1, ((hslots' hover).take_eq_into hslots hassoc houtput).symm⟩
    rw [List.length_take, houtput]
    exact Nat.min_le_left ..

/-- Three lanes scan the first three of four slots with a difference, which is not associative; the last
lane is always the first to move. -/
theorem scans_run_of_differences :
    let callbacks : Callbacks Int Unit := ⟨fun _ _ => .ok 0, fun a b => .ok (a - b), .cloned 0⟩
    let reached := (crew ⟨1, 3, true⟩ 0 3 #[7, 2, 1, 9]).run callbacks ⟨#[], .start 0⟩
      (List.replicate 16 [2, 0, 1]).flatten
    reached.1.isOver = true ∧ reached.1.slots[2]? = some 6 ∧ reached.1.slots[3]? = some 9 := by
  intro callbacks
  have hop : ∀ a b, callbacks.combine a b = .ok (a - b) := fun _ _ => rfl
  have h := scans_run hop ⟨1, 3, true⟩ 0 3 (by decide) (by decide) #[7, 2, 1, 9] (by decide)
    ⟨#[], .start 0⟩ (List.replicate 16 [2, 0, 1]).flatten
  have hover : ((crew ⟨1, 3, true⟩ 0 3 #[7, 2, 1, 9]).run callbacks ⟨#[], .start 0⟩
      (List.replicate 16 [2, 0, 1]).flatten).1.isOver = true := by decide +kernel
  obtain ⟨_, value, hvalue, hslot⟩ := h.tree hover 2 (by decide)
  have hsix : (tree 2).value (fun a b : Int => a - b) #[7, 2, 1, 9] = some 6 := by decide +kernel
  rw [hsix] at hvalue
  exact ⟨hover, hslot.trans hvalue.symm, h.others hover 3 (by decide)⟩

end BlockScan

end BlockMachine
