import BlockMachine.Proofs.Block.Works
import BlockMachine.Proofs.BlockScan.Chunk
import BlockMachine.Proofs.Decomposition
import BlockMachine.Reduction

/-!
# A block of a reduction

* `Reduction.Folds` — what the first lane carries from chunk to chunk, and `Reduction.Takes` in which stages.
* `Reduction.Chunked` — chunks that lie one after the other, and `Reduction.chunked_chunks` says that
  those of an interval do.
* `Reduction.reaches_overChunks` — the lanes take the chunks without clashes, and ask for each item once.
* `Reduction.runs_program` — a block ends, and has written what its first lane carries at the end.
-/

set_option autoImplicit false

namespace BlockMachine

open Request BlockScan

namespace Reduction

variable {σ : Type} {callbacks : Callbacks σ σ} {items : Nat → σ}

/-! ## The chunks of an interval -/

/-- An interval with no items has no chunks, -/
theorem chunks_of_le {width start stop : Nat} (hwidth : 0 < width) (hle : stop ≤ start) :
    chunks ⟨start, stop⟩ width = [] := by
  have hturns : (stop - start + (width - 1)) / width = 0 := Nat.div_eq_of_lt (by omega)
  simp only [chunks, Interval.length, hturns, List.range_zero, List.map_nil]

/-- and any other one a first chunk and those of the rest. -/
theorem chunks_of_lt {width start stop : Nat} (hwidth : 0 < width) (hlt : start < stop) :
    chunks ⟨start, stop⟩ width =
      (start, min width (stop - start)) :: chunks ⟨start + width, stop⟩ width := by
  have hturns : (stop - start + (width - 1)) / width =
      (stop - (start + width) + (width - 1)) / width + 1 := by
    rw [← Nat.add_div_right _ hwidth]
    by_cases hle : width ≤ stop - start
    · congr 1
      omega
    · -- the only chunk
      rw [Nat.div_eq_of_lt_le (by omega) (by omega : stop - start + (width - 1) < (1 + 1) * width),
        Nat.div_eq_of_lt_le (by omega)
          (by omega : stop - (start + width) + (width - 1) + width < (1 + 1) * width)]
  simp only [chunks, Interval.length, hturns, List.range_succ_eq_map, List.map_cons, List.map_map,
    Nat.zero_mul, Nat.add_zero]
  refine congrArg _ (List.map_congr_left fun turn _ => ?_)
  have hnext : start + (turn + 1) * width = start + width + turn * width := by
    rw [Nat.succ_mul]
    omega
  simp only [Function.comp_apply, Nat.succ_eq_add_one, hnext]

/-- Chunks of at most `width` items that lie one after the other, from `start` up to `stop`. -/
inductive Chunked (width : Nat) : (start stop : Nat) → List (Nat × Nat) → Prop
  | nil (stop : Nat) : Chunked width stop stop []
  | cons {start stop n : Nat} {rest : List (Nat × Nat)} (hpos : 0 < n) (hn : n ≤ width)
      (later : Chunked width (start + n) stop rest) : Chunked width start stop ((start, n) :: rest)

theorem Chunked.le {width start stop : Nat} {list : List (Nat × Nat)}
    (h : Chunked width start stop list) : start ≤ stop := by
  induction h with
  | nil _ => exact Nat.le_refl _
  | cons _ _ _ ih => omega

/-- Each chunk has an item and lies within the interval. -/
theorem Chunked.within {width start stop : Nat} {list : List (Nat × Nat)} (h : Chunked width start stop list) :
    ∀ chunk ∈ list, start ≤ chunk.1 ∧ 0 < chunk.2 ∧ chunk.1 + chunk.2 ≤ stop := by
  induction h with
  | nil _ => exact fun _ h => absurd h List.not_mem_nil
  | @cons start stop n rest hpos _ hlater ih =>
    refine List.forall_mem_cons.mpr ⟨⟨Nat.le_refl _, hpos, hlater.le⟩, fun chunk hchunk => ?_⟩
    obtain ⟨hstart, hchunk⟩ := ih chunk hchunk
    exact ⟨Nat.le_trans (Nat.le_add_right start n) hstart, hchunk⟩

/-- **The chunks of an interval lie one after the other.** -/
theorem chunked_chunks {width : Nat} (hwidth : 0 < width) (interval : Interval)
    (hle : interval.start ≤ interval.stop) :
    Chunked width interval.start interval.stop (chunks interval width) := by
  obtain ⟨start, stop⟩ := interval
  induction hrest : stop - start using Nat.strongRecOn generalizing start with
  | _ rest ih =>
    simp only at hle ⊢
    rcases Nat.lt_or_ge start stop with hlt | hge
    · rw [chunks_of_lt hwidth hlt]
      rcases Nat.lt_or_ge (start + width) stop with hlong | hshort
      · have hn : min width (stop - start) = width := Nat.min_eq_left (by omega)
        rw [hn]
        exact .cons hwidth (Nat.le_refl _) (ih _ (by omega) (start + width) (Nat.le_of_lt hlong) rfl)
      · have hn : start + min width (stop - start) = stop := by omega
        rw [chunks_of_le hwidth hshort]
        exact .cons (by omega) (Nat.min_le_left ..) (hn.symm ▸ .nil stop)
    · obtain rfl : start = stop := Nat.le_antisymm hle hge
      rw [chunks_of_le hwidth hge]
      exact .nil _

/-! ## One chunk -/

/-- What the first lane carries after a chunk, given the last entry of its scan. -/
def carried (callbacks : Callbacks σ σ) : Option σ → σ → Except Panic σ
  | none, entry => .ok entry
  | some carry, entry => callbacks.combine carry entry

/-- What is carried, as each lane knows it. -/
def atFirst (carry : Option σ) (lane : Nat) : Option σ := if lane = 0 then carry else none

/-- What the first lane asks after the scan of a chunk. -/
def carryStage (carry : Option σ) (n : Nat) (entry : σ) : Stage σ σ := fun lane =>
  if lane = 0 then .load (n - 1) :: carry.toList.map fun carry => .combine carry entry else []

theorem mem_carryStage {carry : Option σ} {n lane : Nat} {entry : σ} {request : Request σ σ}
    (h : request ∈ carryStage carry n entry lane) : request.Local ∧ request.stored? = none := by
  unfold carryStage at h
  split at h
  · rcases List.mem_cons.mp h with rfl | h
    · exact ⟨trivial, rfl⟩
    · obtain ⟨_, _, rfl⟩ := List.mem_map.mp h
      exact ⟨trivial, rfl⟩
  · cases h

/-- What a lane does with the carry after the scan of a chunk. -/
def takeUp (context : LaneContext) (carry : Option σ) (n : Nat) : Lane σ σ (Option σ) := do
  let carry ← if context.lane = 0 then do
      let last ← Lane.ofExcept (Word.sub n 1)
      let total ← Lane.load last
      carryOver carry total
    else pure carry
  Lane.sync
  return carry

theorem segment_takeUp (context : LaneContext) {carry : Option σ} {n : Nat} {entry next : σ}
    {sight : Sight σ} (hpos : 0 < n) (hentry : sight.slots[n - 1]? = some entry)
    (hnext : carried callbacks carry entry = .ok next) :
    (takeUp context (atFirst carry context.lane) n).segment callbacks sight =
      (carryStage carry n entry context.lane,
        .waiting (.done (atFirst (some next) context.lane))) := by
  apply Lane.Asks.segment_waiting
  unfold takeUp carryStage atFirst
  by_cases hlane : context.lane = 0
  · have hlast : Word.sub n 1 = .ok (n - 1) := Word.sub_eq_ok hpos
    have hload : Request.answer callbacks (.load (n - 1) : Request σ σ) sight = .ok entry := by
      simp only [Request.answer, hentry]
    simp only [hlane, if_true]
    refine (Lane.asks_ofExcept hlast sight).seq (.one hload ?_)
    cases carry with
    | none =>
      obtain rfl := Except.ok.inj hnext
      exact .none ..
    | some carry => exact .one hnext (.none ..)
  · simp only [hlane, if_false]
    exact .none ..

/-- The stages of a block that lays out the items of some chunks, one chunk after the other. -/
def LaysOut (items : Nat → σ) (list : List (Nat × Nat)) (stages : List (Stage σ σ)) : Prop :=
  Stage.Works (fun stage => ∀ lane, ∀ request ∈ stage lane, request.item? = none)
    (fun chunk stage => stage = layStage items chunk.1 chunk.2 none) list stages

/-- What the lanes have done once they have taken some chunks. -/
structure Taken (items : Nat → σ) (threads start stop : Nat) (list : List (Nat × Nat))
    (stages : List (Stage σ σ)) (before after : Sight σ) : Prop where
  size : after.slots.size = before.slots.size
  lays : LaysOut items list stages
  asks : AsksEach start stop (stages.flatMap fun stage => stage.all threads)

theorem no_item_of_local {stages : List (Stage σ σ)} {threads : Nat}
    (h : ∀ stage ∈ stages, ∀ lane, ∀ request ∈ stage lane, request.Local) :
    ∀ request ∈ stages.flatMap fun stage => stage.all threads, request.item? = none := by
  intro request hr
  obtain ⟨stage, hstage, hr⟩ := List.mem_flatMap.mp hr
  obtain ⟨lane, _, hr⟩ := Stage.mem_all.mp hr
  exact (h stage hstage lane request hr).item?_eq

/-- The stages of a chunk: it is laid out and scanned, and the first lane takes up the carry. -/
def chunkStages (items : Nat → σ) (carry : Option σ) (start n : Nat) (values : Nat → Nat → σ) :
    List (Stage σ σ) :=
  layStage items start n none :: (BlockScan.stages n values 0 (roundCount n) ++
    [carryStage carry n (values (roundCount n) (n - 1))])

/-- All that comes after a chunk has been laid out keeps to the slots. -/
theorem local_of_mem_scan {carry : Option σ} {n : Nat} {values : Nat → Nat → σ} {stage : Stage σ σ}
    (hstage : stage ∈ BlockScan.stages n values 0 (roundCount n) ++
      [carryStage carry n (values (roundCount n) (n - 1))]) {lane : Nat} {request : Request σ σ}
    (hr : request ∈ stage lane) : request.Local := by
  rcases List.mem_append.mp hstage with hstage | hstage
  · exact local_of_mem_stages hstage hr
  · rw [List.mem_singleton.mp hstage] at hr
    exact (mem_carryStage hr).1

/-- Nothing is written while a chunk is taken. -/
theorem silent_of_mem_chunkStages {items : Nat → σ} {carry : Option σ} {start n : Nat} {values : Nat → Nat → σ}
    {stage : Stage σ σ} (hstage : stage ∈ chunkStages items carry start n values) {lane : Nat}
    {request : Request σ σ} (hr : request ∈ stage lane) : request.Silent := by
  rcases List.mem_cons.mp hstage with rfl | hstage
  · exact (mem_layStage hr).silent
  · exact (local_of_mem_scan hstage hr).silent

variable {geometry : Geometry} {start stop n : Nat}

/-- **The lanes take a chunk.** -/
theorem reaches_chunk (block : Nat) {values : Nat → Nat → σ} {carry : Option σ} {next : σ}
    {sight : Sight σ} (hpos : 0 < n) (hn : n ≤ geometry.threads) (hsize : sight.slots.size = geometry.threads)
    (hlimit : start + n ≤ Word.limit) (hgives : Gives callbacks items start (start + n) sight.calls)
    (hentries : ∀ i < n, values 0 i = items (start + i)) (hvalues : Values callbacks n values)
    (hnext : carried callbacks carry (values (roundCount n) (n - 1)) = .ok next) :
    ∃ last, Block.Reaches callbacks geometry.threads
      (fun lane => chunk (geometry.context block lane) geometry.threads (atFirst carry lane) start n)
      sight (chunkStages items carry start n values) (fun lane => .done (atFirst (some next) lane)) last ∧
      Taken items geometry.threads start (start + n) [(start, n)] (chunkStages items carry start n values)
        sight last := by
  -- the chunk is laid out
  have hlay : ∀ lane < geometry.threads,
      (chunk (geometry.context block lane) geometry.threads (atFirst carry lane) start n).segment
        callbacks sight = (layStage items start n none lane, .waiting (do
          scanFirst (geometry.context block lane) geometry.threads n
          takeUp (geometry.context block lane) (atFirst carry lane) n)) := by
    intro lane hlane
    apply Lane.Asks.segment_waiting
    unfold chunk layStage
    by_cases hlt : lane < n
    · have hasks := asks_lay hgives (Nat.add_lt_add_left hlt start) (by omega) hlimit
        fun _ _ => (.barrier (do
          scanFirst (geometry.context block lane) geometry.threads n
          takeUp (geometry.context block lane) (atFirst carry lane) n) : Lane σ σ (Option σ))
      simp only [Geometry.context, hlt, if_true]
      exact hasks
    · simp only [Geometry.context, hlt, if_false]
      exact .none ..
  have hholds : Holds n values 0
      (sight.after ((layStage items start n none : Stage σ σ).all geometry.threads)) := by
    intro i hi
    have hslot := (slot_after_layStage callbacks items start n none (Nat.lt_of_lt_of_le hi hn)
      (hsize.symm ▸ Nat.lt_of_lt_of_le hi hn)).1 hi
    rw [hslot, hentries i hi]
  obtain ⟨middle, hscan, hscanned⟩ := reaches_scanFirst (α := σ) hvalues geometry block hn hholds
    (by rw [Sight.size_after, hsize]) hn
  -- the first lane takes up the carry
  have htake : Block.Reaches callbacks geometry.threads
      (fun lane => takeUp (geometry.context block lane) (atFirst carry lane) n) middle _
      (fun lane => .done (atFirst (some next) lane)) _ :=
    .one (fun lane _ => segment_takeUp (geometry.context block lane) hpos
        (hscanned.holds (n - 1) (by omega)) hnext)
      (Stage.apart_of_quiet fun lane _ request hr =>
        ⟨(mem_carryStage hr).2, (mem_carryStage hr).1.item?_eq⟩)
  refine ⟨_, .pass hlay apart_layStage (hscan.seq htake), ?_, ?_, ?_⟩
  · rw [Sight.size_after, hscanned.size, Sight.size_after]
  · exact .work rfl (.of_idle fun stage hstage lane request hr => (local_of_mem_scan hstage hr).item?_eq)
  · rw [chunkStages, List.flatMap_cons]
    exact (asksEach_layStage hn).append_of_no_item (Nat.le_add_right _ _)
      (no_item_of_local fun stage hstage lane request => local_of_mem_scan hstage)

theorem Taken.trans {threads middle : Nat} {list rest : List (Nat × Nat)} {stages later : List (Stage σ σ)}
    {a b c : Sight σ} (h : Taken items threads start middle list stages a b)
    (h' : Taken items threads middle stop rest later b c) (hle : start ≤ middle) (hle' : middle ≤ stop) :
    Taken items threads start stop (list ++ rest) (stages ++ later) a c := by
  refine ⟨h'.size.trans h.size, h.lays.append h'.lays, ?_⟩
  rw [List.flatMap_append]
  exact h.asks.append h'.asks hle hle'

/-! ## All chunks -/

/-- What the first lane carries from chunk to chunk, if it carries `carry` before the first one and `last`
after the last one. -/
inductive Folds (callbacks : Callbacks σ σ) (items : Nat → σ) :
    Option σ → List (Nat × Nat) → Option σ → Prop
  | nil (carry : Option σ) : Folds callbacks items carry [] carry
  | cons {carry last : Option σ} {start n : Nat} {values : Nat → Nat → σ} {next : σ}
      {rest : List (Nat × Nat)} (entries : ∀ i < n, values 0 i = items (start + i))
      (rounds : Values callbacks n values)
      (hnext : carried callbacks carry (values (roundCount n) (n - 1)) = .ok next)
      (later : Folds callbacks items (some next) rest last) :
      Folds callbacks items carry ((start, n) :: rest) last

/-- The same, with the stages in which the lanes take the chunks. -/
inductive Takes (callbacks : Callbacks σ σ) (items : Nat → σ) :
    Option σ → List (Nat × Nat) → Option σ → List (Stage σ σ) → Prop
  | nil (carry : Option σ) : Takes callbacks items carry [] carry []
  | cons {carry last : Option σ} {start n : Nat} {values : Nat → Nat → σ} {next : σ}
      {rest : List (Nat × Nat)} {stages : List (Stage σ σ)}
      (entries : ∀ i < n, values 0 i = items (start + i)) (rounds : Values callbacks n values)
      (hnext : carried callbacks carry (values (roundCount n) (n - 1)) = .ok next)
      (later : Takes callbacks items (some next) rest last stages) :
      Takes callbacks items carry ((start, n) :: rest) last (chunkStages items carry start n values ++ stages)

theorem Folds.exists_takes {carry last : Option σ} {list : List (Nat × Nat)}
    (h : Folds callbacks items carry list last) : ∃ stages, Takes callbacks items carry list last stages := by
  induction h with
  | nil carry => exact ⟨[], .nil carry⟩
  | cons entries rounds hnext _ ih =>
    obtain ⟨stages, htakes⟩ := ih
    exact ⟨_, .cons entries rounds hnext htakes⟩

/-- Nothing is written while the chunks are taken. -/
theorem Takes.silent {carry last : Option σ} {list : List (Nat × Nat)} {stages : List (Stage σ σ)}
    (h : Takes callbacks items carry list last stages) :
    ∀ stage ∈ stages, ∀ lane, ∀ request ∈ stage lane, request.Silent := by
  induction h with
  | nil _ => exact fun _ hstage => absurd hstage List.not_mem_nil
  | cons _ _ _ _ ih =>
    exact List.forall_mem_append.mpr ⟨fun stage hstage lane request => silent_of_mem_chunkStages hstage, ih⟩

/-- **The lanes take the chunks one after the other.** -/
theorem reaches_overChunks (block : Nat) {list : List (Nat × Nat)}
    (hchunked : Chunked geometry.threads start stop list) (hlimit : stop ≤ Word.limit) :
    ∀ {carry last : Option σ} {stages : List (Stage σ σ)} (sight : Sight σ),
      Takes callbacks items carry list last stages →
      sight.slots.size = geometry.threads → Gives callbacks items start stop sight.calls →
      ∃ final, Block.Reaches callbacks geometry.threads
        (fun lane => overChunks (geometry.context block lane) geometry.threads (atFirst carry lane)
          list) sight stages (fun lane => .done (atFirst last lane)) final ∧
        Taken items geometry.threads start stop list stages sight final := by
  induction hchunked with
  | nil stop =>
    intro carry last stages sight htakes _ _
    cases htakes
    exact ⟨sight, .here .., rfl, .nil, .of_no_item (by simp) _⟩
  | @cons start stop n rest hpos hn hlater ih =>
    intro carry last stages sight htakes hsize hgives
    cases htakes with
    | @cons _ _ _ _ values next _ later hentries hvalues hnext htakes =>
      have hle := hlater.le
      obtain ⟨middle, hchunk, htaken⟩ := reaches_chunk block hpos hn hsize
        (Nat.le_trans hle hlimit)
        (fun index hstart hlt => hgives index hstart (Nat.lt_of_lt_of_le hlt hle)) hentries hvalues
        hnext
      have hgives' : Gives callbacks items (start + n) stop middle.calls := by
        rw [hchunk.last_eq]
        exact hgives.after htaken.asks (Nat.le_add_right _ _)
      obtain ⟨final, hrest, htaken'⟩ :=
        ih hlimit middle htakes (htaken.size.trans hsize) hgives'
      exact ⟨final, hchunk.seq (f := fun lane carry =>
          overChunks (geometry.context block lane) geometry.threads carry rest) hrest,
        htaken.trans htaken' (Nat.le_add_right _ _) hle⟩

/-! ## The whole block -/

/-- What a lane does with what it carries at the end. -/
def giveResult (output : WriteView) (block lane : Nat) (carry : Option σ) : Lane σ σ Unit :=
  carry.elim (pure ()) fun total => if lane = 0 then output.write block total else pure ()

/-- The first lane writes the result. -/
def resultStage (block : Nat) (total : σ) : Stage σ σ := fun lane =>
  if lane = 0 then [.write block total] else []

theorem mem_resultStage {block lane : Nat} {total : σ} {request : Request σ σ}
    (h : request ∈ resultStage block total lane) : request.stored? = none ∧ request.item? = none := by
  unfold resultStage at h
  split at h
  · rw [List.mem_singleton.mp h]
    exact ⟨rfl, rfl⟩
  · cases h

theorem segment_giveResult {block length : Nat} (h : block < length) (total : σ) (lane : Nat)
    (sight : Sight σ) :
    (giveResult (.whole 0 1 length) block lane (atFirst (some total) lane)).segment callbacks sight =
      (resultStage block total lane, .finished ()) := by
  unfold giveResult atFirst resultStage
  by_cases hlane : lane = 0
  · have hwrite : (WriteView.whole 0 1 length).write block total =
        (.ask (.write block total) .done : Lane σ σ Unit) := by
      unfold WriteView.write WriteView.whole
      rw [if_pos h, Nat.zero_div, Nat.zero_add]
    simp only [hlane, if_true, Option.elim_some, hwrite]
    rfl
  · simp only [hlane, if_false, Option.elim_none]
    rfl

/-- A lane takes the chunks of its block, and then gives the result. -/
theorem program_eq {cut : Decomposition} (hcut : cut.WithinWord) {block : Nat}
    (hblock : block < cut.count) (output : WriteView) (geometry : Geometry) (lane : Nat) :
    (program cut output (geometry.context block lane) : Lane σ σ Unit) =
      overChunks (geometry.context block lane) geometry.threads (atFirst none lane)
        (chunks ⟨cut.start block, cut.start (block + 1)⟩ geometry.threads) >>=
          giveResult output block lane := by
  have hnone : (atFirst none lane : Option σ) = none := ite_self _
  rw [hnone]
  show (Lane.ofExcept (cut.interval block) >>= _) = _
  rw [hcut.interval_eq hblock]
  show (overChunks (geometry.context block lane) geometry.threads none _ >>= _) = _
  congr 1
  funext carry
  cases carry <;> rfl

/-- **A block of a reduction ends**, asks for each item of its interval once, and writes what its first
lane carries at the end to the slot of its number. -/
theorem runs_program (geometry : Geometry) {cut : Decomposition} (hcut : cut.WithinWord)
    (hthreads : 0 < geometry.threads) {block : Nat} (hblock : block < cut.count) {length : Nat}
    (hlength : cut.count ≤ length) {slots : Array σ} (hsize : slots.size = geometry.threads)
    {calls : Array Nat} (hgives : Gives callbacks items (cut.start block) (cut.start (block + 1)) calls)
    {total : σ} {stages : List (Stage σ σ)} (htakes : Takes callbacks items none
      (chunks ⟨cut.start block, cut.start (block + 1)⟩ geometry.threads) (some total) stages) :
    Block.Runs callbacks geometry.threads
      (fun lane => program cut (.whole 0 1 length) (geometry.context block lane)) ⟨slots, calls⟩
      (stages ++ [resultStage block total]) (fun _ => .finished ()) ∧
      AsksEach (cut.start block) (cut.start (block + 1))
        ((stages ++ [resultStage block total]).flatMap fun stage => stage.all geometry.threads) ∧
      Writes (Element.cloned 1) block [total]
        ((stages ++ [resultStage block total]).flatMap fun stage => stage.all geometry.threads) ∧
      LaysOut items (chunks ⟨cut.start block, cut.start (block + 1)⟩ geometry.threads)
        (stages ++ [resultStage block total]) := by
  have hle : cut.start block ≤ cut.start (block + 1) := cut.start_mono (Nat.le_succ block)
  have hstop : cut.start (block + 1) ≤ cut.total := cut.start_le_total hblock
  have hchunked : Chunked geometry.threads (cut.start block) (cut.start (block + 1)) _ :=
    chunked_chunks hthreads ⟨cut.start block, cut.start (block + 1)⟩ hle
  obtain ⟨final, hreaches, htaken⟩ :=
    reaches_overChunks block hchunked (by have := hcut.total; omega) ⟨slots, calls⟩ htakes hsize hgives
  have hprogram : (fun lane => program cut (.whole 0 1 length) (geometry.context block lane) :
      Nat → Lane σ σ Unit) = fun lane =>
        overChunks (geometry.context block lane) geometry.threads (atFirst none lane)
          (chunks ⟨cut.start block, cut.start (block + 1)⟩ geometry.threads) >>=
            giveResult (.whole 0 1 length) block lane := by
    funext lane
    exact program_eq hcut hblock _ geometry lane
  have hfinal : (resultStage block total : Stage σ σ).all geometry.threads = [.write block total] :=
    Stage.all_of_first hthreads fun lane hlane => if_neg hlane
  refine ⟨?_, ?_, ?_, ?_⟩
  · rw [hprogram]
    have hblock' : block < length := Nat.lt_of_lt_of_le hblock hlength
    refine (hreaches.bind _).runs
      (.stop (fun lane _ => segment_giveResult hblock' total lane final) ?_ ⟨0, hthreads, rfl⟩)
    exact Stage.apart_of_quiet fun lane _ request => mem_resultStage
  · rw [List.flatMap_append, List.flatMap_singleton, hfinal]
    apply htaken.asks.append_of_no_item hle
    intro request hr
    rw [List.mem_singleton.mp hr]
    rfl
  · rw [List.flatMap_append, List.flatMap_singleton, hfinal]
    apply (Writes.write (.inl rfl) fun _ => rfl).silent_append
    intro request hr
    obtain ⟨stage, hstage, hr⟩ := List.mem_flatMap.mp hr
    obtain ⟨lane, _, hr⟩ := Stage.mem_all.mp hr
    exact htakes.silent stage hstage lane request hr
  · rw [← List.append_nil (chunks _ _)]
    refine htaken.lays.append (.of_idle fun stage hstage lane request hr => ?_)
    rw [List.mem_singleton.mp hstage] at hr
    exact (mem_resultStage hr).2

end Reduction

end BlockMachine
