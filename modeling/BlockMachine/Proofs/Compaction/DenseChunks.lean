import BlockMachine.Proofs.Compaction.Block

/-!
# Dense chunks

A chunk of an interval is dense if it has an element for each lane and all of its elements are selected.  Only such
a chunk is moved as a whole, so that parts of one element may come from different lanes.

* `Compaction.denseChunks` — the dense chunks of an interval.
* `Compaction.lt_fullChunks_iff`, `Compaction.add_fullChunk` — full chunks are counted without leaving the words.
* `Compaction.InDense` — a slot is filled from one of them.
* `Compaction.TakesChunks.whole` — one request writes all of a slot, unless that is filled from a dense chunk
  whose elements are copied through their bytes.
-/

set_option autoImplicit false

namespace BlockMachine

open Request BlockScan

namespace Compaction

variable {α : Type} {callbacks : Callbacks Nat α} {task : Task α} {items : Nat → Nat} {geometry : Geometry}
  {cut : Decomposition} {width block out base : Nat}

/-! ## The dense chunks of a block -/

/-- Whether a chunk is full and all of its elements are selected. -/
def IsDense (items : Nat → Nat) (width : Nat) (chunk : Nat × Nat) : Prop :=
  chunk.2 = width ∧ ∀ lane < width, items (chunk.1 + lane) ≠ 0

instance (items : Nat → Nat) (width : Nat) : DecidablePred (IsDense items width) :=
  fun _ => inferInstanceAs (Decidable (_ ∧ _))

/-- The dense chunks of a block, each told by the number of its first element.  Full chunks are counted from the
start of the interval. -/
def denseChunks (cut : Decomposition) (items : Nat → Nat) (width block : Nat) : List Nat :=
  ((List.range ((cut.start (block + 1) - cut.start block) / width)).map (cut.start block + · * width)).filter
    fun base => ∀ lane < width, items (base + lane) ≠ 0

/-- The full chunks of an interval are those that end within it, -/
theorem lt_fullChunks_iff (hwidth : 0 < width) {turn : Nat} :
    turn < (cut.start (block + 1) - cut.start block) / width ↔
      cut.start block + turn * width + width ≤ cut.start (block + 1) := by
  have hle : cut.start block ≤ cut.start (block + 1) := cut.start_mono (Nat.le_succ block)
  rw [← Nat.succ_le_iff, Nat.le_div_iff_mul_le hwidth, Nat.succ_mul]
  omega

/-- and the end of the chunk that is tried is a word in each turn, also in the last one. -/
theorem add_fullChunk {turn : Nat} (hstop : cut.start (block + 1) + width < Word.limit)
    (hturn : turn ≤ (cut.start (block + 1) - cut.start block) / width) :
    Word.add (cut.start block + turn * width) width = .ok (cut.start block + (turn + 1) * width) := by
  have hle : cut.start block ≤ cut.start (block + 1) := cut.start_mono (Nat.le_succ block)
  have hfront := Nat.mul_le_mul_right width hturn
  have hall := Nat.div_mul_le_self (cut.start (block + 1) - cut.start block) width
  rw [Nat.succ_mul, ← Nat.add_assoc]
  exact Word.add_eq_ok (by omega)

theorem mem_denseChunks (hwidth : 0 < width) {base : Nat} : base ∈ denseChunks cut items width block ↔
    (∃ turn, base = cut.start block + turn * width) ∧ base + width ≤ cut.start (block + 1) ∧
      ∀ lane < width, items (base + lane) ≠ 0 := by
  rw [denseChunks, List.mem_filter, List.mem_map, decide_eq_true_eq]
  constructor
  · rintro ⟨⟨turn, hturn, rfl⟩, hall⟩
    exact ⟨⟨turn, rfl⟩, (lt_fullChunks_iff hwidth).mp (List.mem_range.mp hturn), hall⟩
  · rintro ⟨⟨turn, rfl⟩, hfull, hall⟩
    exact ⟨⟨turn, List.mem_range.mpr ((lt_fullChunks_iff hwidth).mpr hfull), rfl⟩, hall⟩

theorem nodup_denseChunks (hwidth : 0 < width) : (denseChunks cut items width block).Nodup := by
  refine (List.nodup_range.map_on fun turn _ other _ h => ?_).filter _
  exact Nat.eq_of_mul_eq_mul_right hwidth (Nat.add_left_cancel h)

/-- An interval is cut into full chunks, and one that is not full if there is a rest. -/
theorem chunks_eq_append (hwidth : 0 < width) (start stop : Nat) :
    Reduction.chunks ⟨start, stop⟩ width =
      ((List.range ((stop - start) / width)).map fun turn => (start + turn * width, width)) ++
        if (stop - start) % width = 0 then []
        else [(start + (stop - start) / width * width, (stop - start) % width)] := by
  have hdiv := Nat.div_add_mod (stop - start) width
  have hmod := Nat.mod_lt (stop - start) hwidth
  rw [Nat.mul_comm] at hdiv
  have hfull : ∀ turn ∈ List.range ((stop - start) / width),
      (start + turn * width, min width (stop - (start + turn * width))) = (start + turn * width, width) := by
    intro turn hturn
    have hle := Nat.mul_le_mul_right width (Nat.succ_le_of_lt (List.mem_range.mp hturn))
    rw [Nat.succ_mul] at hle
    rw [Nat.min_eq_left (by omega)]
  unfold Reduction.chunks
  simp only [Interval.length]
  by_cases hzero : (stop - start) % width = 0
  · have hturns : (stop - start + (width - 1)) / width = (stop - start) / width :=
      Nat.div_eq_of_lt_le (by omega) (by rw [Nat.succ_mul]; omega)
    rw [hturns, if_pos hzero, List.append_nil]
    exact List.map_congr_left hfull
  · have hturns : (stop - start + (width - 1)) / width = (stop - start) / width + 1 :=
      Nat.div_eq_of_lt_le (by rw [Nat.succ_mul]; omega) (by rw [Nat.succ_mul, Nat.succ_mul]; omega)
    have hlast : min width (stop - (start + (stop - start) / width * width)) = (stop - start) % width := by
      omega
    rw [hturns, if_neg hzero, List.range_succ, List.map_append, List.map_congr_left hfull, List.map_singleton,
      hlast]

/-- What is collected from the chunks of a block, if only the dense ones count. -/
theorem flatMap_chunks {ρ : Type} (hwidth : 0 < width) (part : Nat → List ρ) :
    ((Reduction.chunks ⟨cut.start block, cut.start (block + 1)⟩ width).flatMap fun chunk =>
      if IsDense items width chunk then part chunk.1 else []) =
        (denseChunks cut items width block).flatMap part := by
  have hrest : (if (cut.start (block + 1) - cut.start block) % width = 0 then []
      else [(cut.start block + (cut.start (block + 1) - cut.start block) / width * width,
        (cut.start (block + 1) - cut.start block) % width)]).flatMap (fun chunk =>
          if IsDense items width chunk then part chunk.1 else []) = [] := by
    have hmod := Nat.mod_lt (cut.start (block + 1) - cut.start block) hwidth
    split
    · rfl
    · rw [List.flatMap_singleton, if_neg fun h => Nat.ne_of_lt hmod h.1]
  rw [chunks_eq_append hwidth, List.flatMap_append, hrest, List.append_nil, denseChunks, List.flatMap_map]
  induction List.range ((cut.start (block + 1) - cut.start block) / width) with
  | nil => rfl
  | cons turn rest ih =>
    rw [List.flatMap_cons, ih, List.map_cons, List.filter_cons]
    by_cases hall : ∀ lane < width, items (cut.start block + turn * width + lane) ≠ 0
    · rw [if_pos ⟨rfl, hall⟩, if_pos (decide_eq_true hall), List.flatMap_cons]
    · rw [if_neg fun h => hall h.2, if_neg (by simpa using hall), List.nil_append]

/-- A dense chunk among those of an interval. -/
theorem mem_denseChunks_of_isDense (hwidth : 0 < width) {chunk : Nat × Nat}
    (hchunk : chunk ∈ Reduction.chunks ⟨cut.start block, cut.start (block + 1)⟩ width)
    (hdense : IsDense items width chunk) : chunk.1 ∈ denseChunks cut items width block := by
  have hbases : _ = (denseChunks cut items width block).flatMap fun base => [base] :=
    flatMap_chunks hwidth fun base => [base]
  rw [← List.flatMap_singleton' (denseChunks cut items width block), ← hbases]
  exact List.mem_flatMap.mpr ⟨chunk, hchunk, by rw [if_pos hdense]; exact List.mem_singleton_self _⟩

/-! ## Chunks with as many selected elements as lanes -/

/-- If all elements of a chunk are selected then there are as many as there are lanes. -/
theorem total_of_all (hitems : ∀ index, items index ≤ 1) {base : Nat}
    (hall : ∀ lane < width, items (base + lane) ≠ 0) : total (laneFlag items base width) width = width := by
  have hfront : ∀ count ≤ width, total (laneFlag items base width) count = count := by
    intro count
    induction count with
    | zero => exact fun _ => rfl
    | succ count ih =>
      intro hcount
      have hne := hall count hcount
      have hle := hitems (base + count)
      rw [total_succ, ih (Nat.le_of_succ_le hcount), laneFlag, if_pos (Nat.lt_of_succ_le hcount)]
      omega
  exact hfront width (Nat.le_refl _)

/-- If as many elements are selected as there are lanes, then so are those of the first lanes, -/
theorem total_laneFlag_of_full (hflags : ∀ index, items index ≤ 1) {base lane : Nat}
    (hfull : total (laneFlag items base width) width = width) (hlane : lane ≤ width) :
    total (laneFlag items base width) lane = lane := by
  have hparts := total_add (laneFlag items base width) lane (width - lane)
  have hfront := total_laneFlag_le hflags base width lane
  have hback := total_le (laneFlag_le hflags base width) lane (width - lane)
  rw [Nat.add_sub_cancel' hlane, hfull] at hparts
  omega

/-- and so is that of each lane. -/
theorem item_of_full (hflags : ∀ index, items index ≤ 1) {base lane : Nat}
    (hfull : total (laneFlag items base width) width = width) (hlane : lane < width) :
    items (base + lane) ≠ 0 := by
  have hnext := total_laneFlag_of_full hflags hfull (Nat.succ_le_of_lt hlane)
  rw [total_succ, total_laneFlag_of_full hflags hfull (Nat.le_of_lt hlane), laneFlag, if_pos hlane] at hnext
  omega

/-! ## The slots that are filled from dense chunks -/

/-- Whether a slot is filled from a dense chunk, which goes behind all elements that are selected before it. -/
def InDense (cut : Decomposition) (items : Nat → Nat) (width slot : Nat) : Prop :=
  ∃ block < cut.count, ∃ base ∈ denseChunks cut items width block,
    total items base ≤ slot ∧ slot < total items base + width

section Whole

variable (setting : Setting callbacks task items geometry.threads) (hthreads : 0 < geometry.threads)
  {request : Request Nat α} {slot place : Nat}

include setting hthreads

/-- The stage that moves a chunk writes slots as a whole, or it moves a dense chunk through its bytes. -/
theorem MovesChunk.whole_or_isDense {chunk : Nat × Nat} {stage : Stage Nat α}
    (h : MovesChunk task items geometry block out chunk stage) (hr : request ∈ stage.all geometry.threads)
    (hplace : place < task.element.size) (hpiece : request.piece? task.element slot place ≠ none) :
    request.Whole ∨ ¬ BlockCopy.ByElement task.element geometry.wideCopy ∧
      IsDense items geometry.threads chunk ∧ out ≤ slot ∧ slot < out + geometry.threads := by
  have hall := hr
  obtain ⟨lane, _, hr⟩ := Stage.mem_all.mp hr
  cases h with
  | part _ _ _ => exact .inl (mem_scatterRequests hr).2.2
  | @full base hinside hfits =>
    by_cases hby : BlockCopy.ByElement task.element geometry.wideCopy
    · exact .inl ((mem_moveStage hr).2.2 hby)
    by_cases hfull : total (laneFlag items base geometry.threads) geometry.threads = geometry.threads
    · have hwrites := writes_moveStage setting block hthreads hinside hfits
      have hlength : (selected items task.input.values base geometry.threads).length = geometry.threads := by
        have hsize : task.input.length = task.input.values.size := rfl
        rw [length_selected setting.flags (by omega)]
        rwa [total_laneFlag, Nat.min_self] at hfull
      -- behind and before the chunk its lanes write nothing
      have hslot : ¬ (slot < out ∨ out + geometry.threads ≤ slot) := fun hslot =>
        hpiece (List.filterMap_eq_nil_iff.mp
          (hwrites.outside slot (by rwa [hlength]) place hplace) request hall)
      exact .inr ⟨hby, ⟨rfl, fun lane hlane => item_of_full setting.flags hfull hlane⟩, by omega, by omega⟩
    · rcases List.mem_cons.mp hr with rfl | hr
      · exact .inl trivial
      · rw [moveRequests, if_neg hfull] at hr
        exact .inl (mem_scatterRequests hr).2.2

/-- **One request writes all of a slot**, unless that is filled from a dense chunk whose elements are copied through
their bytes. -/
theorem TakesChunks.whole {stages : List (Stage Nat α)} (hblock : block < cut.count)
    (h : TakesChunks task items geometry block (cut.start block) (cut.start (block + 1)) stages)
    (hr : request ∈ stages.flatMap fun stage => stage.all geometry.threads)
    (hplace : place < task.element.size) (hpiece : request.piece? task.element slot place ≠ none)
    (hapart : BlockCopy.ByElement task.element geometry.wideCopy ∨
      ¬ InDense cut items geometry.threads slot) : request.Whole := by
  obtain ⟨stage, hstage, hr⟩ := List.mem_flatMap.mp hr
  rcases h.idle_or_does hstage with hidle | ⟨chunk, hchunk, hmoves⟩
  · obtain ⟨lane, hlane, hr⟩ := Stage.mem_all.mp hr
    exact (hidle lane hlane request hr).1.whole
  · rcases hmoves.whole_or_isDense setting hthreads hr hplace hpiece with hwhole | ⟨hbytes, hdense, hslot⟩
    · exact hwhole
    · have hmem := mem_denseChunks_of_isDense hthreads hchunk hdense
      exact absurd ⟨block, hblock, chunk.1, hmem, hslot⟩ (hapart.resolve_left hbytes)

end Whole

end Compaction

end BlockMachine
