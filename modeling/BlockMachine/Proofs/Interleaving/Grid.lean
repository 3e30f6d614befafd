import BlockMachine.Proofs.Interleaving.Course
import BlockMachine.Proofs.Launch.Plan
import Mathlib.Data.List.Nodup

/-!
# Any order of the lanes of a launch

A launch that has a plan keeps to it in every order of its blocks and their lanes.

* `Grid.ofBlock` — what the lanes of one block did.
* `Grid.Follows` — each block of a launch under way has not begun, or follows its run.
* `Grid.Follows.turn`, `Grid.follows_run` — every turn keeps a launch on its plan.
* `Grid.run_store` — what a launch leaves is what the requests of its log leave.
* `Grid.Follows.of_isOver` — a launch that is over has made the requests of its plan.
* `Grid.Follows.exists_run` — a launch can be brought to its end.
-/

set_option autoImplicit false

namespace BlockMachine

open History

namespace Grid

variable {σ α : Type}

/-! ## The log of a block -/

/-- What the lanes of one block did. -/
def ofBlock (block : Nat) (log : List ((Nat × Nat) × Deed σ α)) : List (Nat × Deed σ α) :=
  own block (log.map fun entry => (entry.1.1, (entry.1.2, entry.2)))

theorem mem_ofBlock {block lane : Nat} {deed : Deed σ α} {log : List ((Nat × Nat) × Deed σ α)} :
    (lane, deed) ∈ ofBlock block log ↔ ((block, lane), deed) ∈ log := by
  unfold ofBlock
  rw [mem_own, List.mem_map]
  constructor
  · rintro ⟨⟨⟨block', lane'⟩, deed'⟩, hmem, h⟩
    simp only [Prod.mk.injEq] at h
    obtain ⟨rfl, rfl, rfl⟩ := h
    exact hmem
  · intro h
    exact ⟨_, h, rfl⟩

theorem ofBlock_append (block : Nat) (early late : List ((Nat × Nat) × Deed σ α)) :
    ofBlock block (early ++ late) = ofBlock block early ++ ofBlock block late := by
  rw [ofBlock, List.map_append, own_append]
  rfl

/-- The deed of a turn, if there is one, belongs to the lane whose turn it is. -/
theorem ofBlock_turn (block : Nat) (place : Nat × Nat) (deed : Option (Deed σ α)) :
    ofBlock block (deed.toList.map fun deed => (place, deed)) =
      if place.1 = block then deed.toList.map fun deed => (place.2, deed) else [] := by
  cases deed with
  | none => exact (ite_self _).symm
  | some deed => exact own_cons block _ _

/-! ## Following a plan -/

variable {kernel : Kernel σ α} {geometry : Geometry} {calls : Array Nat}

/-- A block that has not begun, or follows its run. -/
def BlockFollows (plan : Plan kernel geometry calls) (block : Nat) (crew? : Option (Crew σ α Unit))
    (store : Store α) (log : List (Nat × Deed σ α)) : Prop :=
  match crew? with
  | none => log = [] ∧ plan.Ready block store
  | some crew => Crew.Follows kernel.callbacks geometry.threads ⟨plan.slots, calls⟩
      (plan.stages block) (plan.stops block) crew store.journal.calls log

/-- A launch under way whose blocks keep to a plan. -/
structure Follows (plan : Plan kernel geometry calls) (grid : Grid σ α)
    (log : List ((Nat × Nat) × Deed σ α)) : Prop where
  length : grid.crews.length = geometry.blocks
  log_lt : ∀ entry ∈ log, entry.1.1 < geometry.blocks
  blocks : ∀ block < geometry.blocks,
    BlockFollows plan block (grid.crew? block) grid.store (ofBlock block log)

variable {plan : Plan kernel geometry calls} {grid : Grid σ α}
  {log : List ((Nat × Nat) × Deed σ α)}

theorem crew?_set (grid : Grid σ α) (store : Store α) {block : Nat} (hblock : block < grid.crews.length)
    (crew : Crew σ α Unit) (other : Nat) :
    crew? ⟨grid.crews.set block (some crew), store⟩ other =
      if block = other then some crew else grid.crew? other := by
  unfold crew?
  by_cases h : block = other
  · subst h
    rw [if_pos rfl, List.getElem?_set_self hblock]
    rfl
  · rw [if_neg h, List.getElem?_set_ne h]

theorem lt_of_crew? {block : Nat} {crew : Crew σ α Unit} (h : grid.crew? block = some crew) :
    block < grid.crews.length := by
  unfold crew? at h
  by_cases hlt : block < grid.crews.length
  · exact hlt
  · rw [List.getElem?_eq_none (Nat.le_of_not_lt hlt)] at h
    cases h

/-- What a block asks takes no other block off the plan. -/
theorem BlockFollows.environment {block other : Nat} (hblock : block < geometry.blocks)
    (hother : other < geometry.blocks) (hne : block ≠ other) {crew? : Option (Crew σ α Unit)}
    {store : Store α} {blockLog : List (Nat × Deed σ α)}
    (h : BlockFollows plan block crew? store blockLog) {requests : List (Request σ α)}
    (hrequests : ∀ request ∈ requests, request ∈ plan.requests other) :
    BlockFollows plan block crew? (store.after kernel.callbacks.element requests) blockLog := by
  have hcalls : ∀ index,
      Stage.Asked kernel.callbacks geometry.threads (plan.stages block) index →
        (store.after kernel.callbacks.element requests).journal.calls[index]? =
          store.journal.calls[index]? :=
    fun index hasked => plan.calls_after_other hblock hother hne hasked hrequests store
  cases crew? with
  | none => exact ⟨h.1, fun index hasked => (hcalls index hasked).trans (h.2 index hasked)⟩
  | some crew => exact Crew.Follows.environment h hcalls

/-- A launch about to begin keeps to its plan. -/
theorem follows_start (plan : Plan kernel geometry calls) {store : Store α}
    (hcalls : store.journal.calls = calls) : Follows plan (start geometry store) [] := by
  refine ⟨by simp [start], fun _ h => absurd h List.not_mem_nil, fun block hblock => ?_⟩
  have hnone : (start geometry store : Grid σ α).crew? block = none := by
    simp [crew?, start, hblock]
  rw [hnone]
  refine ⟨rfl, fun index _ => ?_⟩
  show store.journal.calls[index]? = calls[index]?
  rw [hcalls]

theorem begun_eq (plan : Plan kernel geometry calls) (grid : Grid σ α) (block : Nat) :
    grid.begun kernel geometry block =
      ⟨grid.crews.set block (some (Crew.start plan.slots (kernel.lanes geometry block))),
        grid.store⟩ := by
  unfold Grid.begun
  rw [plan.slots_eq]

/-- The beginning of a block keeps a launch on its plan. -/
theorem Follows.begun (h : Follows plan grid log) {block : Nat} (hnone : grid.crew? block = none)
    (hblock : block < geometry.blocks) : Follows plan (grid.begun kernel geometry block) log := by
  have hlength : block < grid.crews.length := by rw [h.length]; exact hblock
  rw [begun_eq plan]
  refine ⟨by simp [h.length], h.log_lt, fun other hother => ?_⟩
  rw [crew?_set grid _ hlength]
  by_cases he : block = other
  · subst he
    rw [if_pos rfl]
    have hold := h.blocks block hother
    rw [hnone] at hold
    rw [hold.1]
    exact Crew.Follows.start (plan.runs block hother) hold.2
  · rw [if_neg he]
    exact h.blocks other hother

/-- What a crew of a plan asks in a turn belongs to the requests of its block. -/
theorem mem_requests_of_turn {block : Nat} {crew : Crew σ α Unit} {store : Store α}
    {blockLog : List (Nat × Deed σ α)}
    (h : Crew.Follows kernel.callbacks geometry.threads ⟨plan.slots, calls⟩ (plan.stages block)
      (plan.stops block) crew store.journal.calls blockLog) (lane : Nat) :
    ∀ request ∈ Deed.requests ((crew.deed? lane).toList.map fun deed => (lane, deed)),
      request ∈ plan.requests block := by
  intro request hr
  obtain ⟨party, hmem⟩ := Deed.mem_requests.mp hr
  obtain ⟨hlane, stage, hstage, hr⟩ := (h.turn lane).mem_stage (List.mem_append_right _ hmem)
  exact plan.mem_requests.mpr ⟨stage, hstage, Stage.mem_all.mpr ⟨party, hlane, hr⟩⟩

/-- **Every turn keeps a launch on its plan.** -/
theorem Follows.turn (h : Follows plan grid log) (scheduling : Scheduling) (place : Nat × Nat) :
    Follows plan (grid.turn scheduling kernel geometry place)
      (log ++ (grid.deed? place).toList.map fun deed => (place, deed)) := by
  unfold Grid.turn deed?
  cases hcrew : grid.crew? place.1 with
  | none =>
    simp only [Option.bind_none, Option.toList_none, List.map_nil, List.append_nil]
    by_cases hmay : grid.mayBegin scheduling place.1 = true
    · rw [if_pos hmay]
      by_cases hblock : place.1 < geometry.blocks
      · exact h.begun hcrew hblock
      · -- there is no such block
        have hset : grid.crews.set place.1
            (some (Crew.start plan.slots (kernel.lanes geometry place.1))) = grid.crews :=
          List.set_eq_of_length_le (by rw [h.length]; omega)
        rw [begun_eq plan, hset]
        exact h
    · rw [if_neg hmay]
      exact h
  | some crew =>
    have hlength := lt_of_crew? hcrew
    have hblock : place.1 < geometry.blocks := by rwa [h.length] at hlength
    have hfollows := h.blocks place.1 hblock
    rw [hcrew] at hfollows
    refine ⟨by simp [h.length], ?_, fun other hother => ?_⟩
    · intro entry hentry
      rcases List.mem_append.mp hentry with hentry | hentry
      · exact h.log_lt entry hentry
      · obtain ⟨deed, _, rfl⟩ := List.mem_map.mp hentry
        exact hblock
    · show BlockFollows plan other (crew? ⟨grid.crews.set place.1 _, _⟩ other)
        (crew.turn kernel.callbacks place.2 grid.store).2 _
      rw [crew?_set grid _ hlength, ofBlock_append, ofBlock_turn]
      by_cases he : place.1 = other
      · subst he
        rw [if_pos rfl, if_pos rfl]
        exact Crew.Follows.turn hfollows place.2
      · rw [if_neg he, if_neg he, List.append_nil, Crew.turn_store]
        exact (h.blocks other hother).environment hother hblock (Ne.symm he)
          (mem_requests_of_turn hfollows place.2)

/-! ## Runs -/

/-- A launch under way after some turns. -/
def turns (scheduling : Scheduling) (kernel : Kernel σ α) (geometry : Geometry) (grid : Grid σ α)
    (places : List (Nat × Nat)) : Grid σ α :=
  places.foldl (Grid.turn scheduling kernel geometry) grid

theorem turns_append (scheduling : Scheduling) (kernel : Kernel σ α) (geometry : Geometry)
    (grid : Grid σ α) (early late : List (Nat × Nat)) :
    grid.turns scheduling kernel geometry (early ++ late) =
      (grid.turns scheduling kernel geometry early).turns scheduling kernel geometry late :=
  List.foldl_append

theorem Follows.turns (h : Follows plan grid log) (scheduling : Scheduling)
    (places : List (Nat × Nat)) :
    Follows plan (grid.turns scheduling kernel geometry places)
      (log ++ logFrom scheduling kernel geometry grid places) := by
  induction places generalizing grid log with
  | nil => simpa [logFrom, Grid.turns] using h
  | cons place rest ih =>
    have hrest := ih (h.turn scheduling place)
    rw [List.append_assoc] at hrest
    exact hrest

/-- **A launch keeps to its plan in every order of its lanes.** -/
theorem follows_run (plan : Plan kernel geometry calls) {store : Store α}
    (hcalls : store.journal.calls = calls) (scheduling : Scheduling) (places : List (Nat × Nat)) :
    Follows plan (run scheduling kernel geometry store places)
      (Grid.log scheduling kernel geometry store places) :=
  (follows_start plan hcalls).turns scheduling places

theorem turn_store (scheduling : Scheduling) (kernel : Kernel σ α) (geometry : Geometry)
    (grid : Grid σ α) (place : Nat × Nat) :
    (grid.turn scheduling kernel geometry place).store = grid.store.after kernel.callbacks.element
      (Deed.requests ((grid.deed? place).toList.map fun deed => (place, deed))) := by
  unfold Grid.turn deed?
  cases hcrew : grid.crew? place.1 with
  | none =>
    by_cases hmay : grid.mayBegin scheduling place.1 = true
    · rw [if_pos hmay]
      unfold Grid.begun
      cases kernel.slots geometry.threads <;> rfl
    · rw [if_neg hmay]
      rfl
  | some crew =>
    have hturn := Crew.turn_store kernel.callbacks crew place.2 grid.store
    show (crew.turn kernel.callbacks place.2 grid.store).2 = grid.store.after kernel.callbacks.element
      (Deed.requests ((crew.deed? place.2).toList.map fun deed => (place, deed)))
    rw [hturn]
    cases crew.deed? place.2 with
    | none => rfl
    | some deed => cases deed <;> rfl

/-- **What a launch leaves is what the requests of its log leave.** -/
theorem run_store (scheduling : Scheduling) (kernel : Kernel σ α) (geometry : Geometry)
    (store : Store α) (places : List (Nat × Nat)) :
    (run scheduling kernel geometry store places).store = store.after kernel.callbacks.element
      (Deed.requests (Grid.log scheduling kernel geometry store places)) := by
  have hturns : ∀ (places : List (Nat × Nat)) (grid : Grid σ α),
      (grid.turns scheduling kernel geometry places).store =
        grid.store.after kernel.callbacks.element
          (Deed.requests (logFrom scheduling kernel geometry grid places)) := by
    intro places
    induction places with
    | nil => exact fun _ => rfl
    | cons place rest ih =>
      intro grid
      have hlog : Deed.requests (logFrom scheduling kernel geometry grid (place :: rest)) =
          Deed.requests ((grid.deed? place).toList.map fun deed => (place, deed)) ++
            Deed.requests (logFrom scheduling kernel geometry
              (grid.turn scheduling kernel geometry place) rest) :=
        List.filterMap_append
      rw [hlog, Store.after_append, ← turn_store]
      exact ih _
  exact hturns places (start geometry store)

/-! ## Launches that end well -/

theorem getElem?_of_crew? {block : Nat} {crew : Crew σ α Unit} (h : grid.crew? block = some crew) :
    grid.crews[block]? = some (some crew) := by
  unfold crew? at h
  cases hget : grid.crews[block]? with
  | none =>
    rw [hget] at h
    cases h
  | some crew? =>
    rw [hget] at h
    rw [show crew? = some crew from h]

/-- A block that has begun is one of the launch, and follows its run. -/
theorem Follows.of_crew? (h : Follows plan grid log) {block : Nat} {crew : Crew σ α Unit}
    (hcrew : grid.crew? block = some crew) :
    block < geometry.blocks ∧ BlockFollows plan block (some crew) grid.store (ofBlock block log) := by
  have hlt := lt_of_crew? hcrew
  rw [h.length] at hlt
  have hfollows := h.blocks block hlt
  rw [hcrew] at hfollows
  exact ⟨hlt, hfollows⟩

/-- No block of a launch that ends well has a fault. -/
theorem Follows.fault?_eq_none (h : Follows plan grid log)
    (hends : ∀ block < geometry.blocks, Block.EndWell geometry.threads (plan.stops block))
    (block : Nat) : grid.fault? block = none := by
  unfold fault?
  cases hcrew : grid.crew? block with
  | none => rfl
  | some crew =>
    obtain ⟨hblock, hfollows⟩ := h.of_crew? hcrew
    exact (Crew.Follows.not_poisoned hfollows (hends block hblock)).2

/-- **A launch that is over has made the requests of its plan**, and each lane has done its course. -/
theorem Follows.of_isOver (h : Follows plan grid log)
    (hends : ∀ block < geometry.blocks, Block.EndWell geometry.threads (plan.stops block))
    (hover : grid.isOver = true) :
    (∀ block < geometry.blocks, ∀ lane < geometry.threads,
      own lane (ofBlock block log) = Stage.course (plan.stages block) lane) ∧
    (∀ block < geometry.blocks, (Deed.requests (ofBlock block log)).Perm (plan.requests block)) ∧
    (Deed.requests log).Perm ((List.range geometry.blocks).flatMap plan.requests) := by
  have hfault : (List.range grid.crews.length).any (fun block => (grid.fault? block).isSome) = false := by
    rw [List.any_eq_false]
    intro block _
    rw [h.fault?_eq_none hends block]
    simp
  simp only [isOver, hfault, Bool.or_false] at hover
  simp only [Bool.and_eq_true, List.all_eq_true, List.mem_range, h.length] at hover
  obtain ⟨hcrews, hbegun⟩ := hover
  have hdone : ∀ block < geometry.blocks, ∃ crew, crew.isOver = true ∧
      Crew.Follows kernel.callbacks geometry.threads ⟨plan.slots, calls⟩ (plan.stages block)
        (plan.stops block) crew grid.store.journal.calls (ofBlock block log) := by
    intro block hblock
    obtain ⟨crew, hcrew⟩ := Option.isSome_iff_exists.mp (hbegun block hblock)
    have hfollows := h.blocks block hblock
    have hcrewOver := hcrews block hblock
    rw [hcrew] at hfollows hcrewOver
    exact ⟨crew, hcrewOver, hfollows⟩
  have hcourse : ∀ block < geometry.blocks, ∀ lane < geometry.threads,
      own lane (ofBlock block log) = Stage.course (plan.stages block) lane := by
    intro block hblock
    obtain ⟨crew, hcrewOver, hfollows⟩ := hdone block hblock
    exact (hfollows.of_isOver (hends block hblock) hcrewOver).1
  have hown : ∀ block < geometry.blocks,
      (Deed.requests (ofBlock block log)).Perm (plan.requests block) := by
    intro block hblock
    obtain ⟨crew, _, _, _, _, _, _, hwithin⟩ := hdone block hblock
    exact Deed.requests_perm hwithin.log_lt (hcourse block hblock)
  refine ⟨hcourse, hown, ?_⟩
  have hmem : ∀ entry ∈ log.map fun entry => (entry.1.1, (entry.1.2, entry.2)),
      entry.1 ∈ List.range geometry.blocks := by
    intro entry hentry
    obtain ⟨original, horiginal, rfl⟩ := List.mem_map.mp hentry
    exact List.mem_range.mpr (h.log_lt original horiginal)
  have hblocks := perm_flatMap_own List.nodup_range hmem
  have hrequests : Deed.requests log =
      Deed.requests ((log.map fun entry => (entry.1.1, (entry.1.2, entry.2))).map Prod.snd) := by
    simp only [Deed.requests, List.filterMap_map]
    rfl
  rw [hrequests]
  refine (hblocks.filterMap fun entry => entry.2.request?).trans ?_
  rw [List.filterMap_flatMap]
  apply List.Perm.flatMap_left
  exact fun block hmem => hown block (List.mem_range.mp hmem)

/-- Turns of the lanes of one block move that block only. -/
theorem turns_of_block (scheduling : Scheduling) {block : Nat} {crew : Crew σ α Unit}
    (hcrew : grid.crew? block = some crew) (lanes : List Nat) :
    grid.turns scheduling kernel geometry (lanes.map fun lane => (block, lane)) =
      ⟨grid.crews.set block (some (crew.run kernel.callbacks grid.store lanes).1),
        (crew.run kernel.callbacks grid.store lanes).2⟩ := by
  induction lanes generalizing grid crew with
  | nil =>
    have hset : grid.crews.set block (some crew) = grid.crews := by
      obtain ⟨hlt, hget⟩ := List.getElem?_eq_some_iff.mp (getElem?_of_crew? hcrew)
      rw [← hget, List.set_getElem_self]
    show grid = ⟨grid.crews.set block (some crew), grid.store⟩
    rw [hset]
  | cons lane rest ih =>
    have hturn : grid.turn scheduling kernel geometry (block, lane) =
        ⟨grid.crews.set block (some (crew.turn kernel.callbacks lane grid.store).1),
          (crew.turn kernel.callbacks lane grid.store).2⟩ := by
      unfold Grid.turn
      rw [hcrew]
    have hnext := crew?_set grid (crew.turn kernel.callbacks lane grid.store).2 (lt_of_crew? hcrew)
      (crew.turn kernel.callbacks lane grid.store).1 block
    rw [if_pos rfl] at hnext
    have hrest := ih hnext
    rw [List.set_set] at hrest
    show (grid.turn scheduling kernel geometry (block, lane)).turns scheduling kernel geometry
      (rest.map fun lane => (block, lane)) = _
    rw [hturn]
    exact hrest

/-- A block that has begun can be brought to its end while the others rest. -/
theorem Follows.exists_done (h : Follows plan grid log)
    (hends : ∀ block < geometry.blocks, Block.EndWell geometry.threads (plan.stops block))
    (scheduling : Scheduling) {block : Nat} {crew : Crew σ α Unit}
    (hcrew : grid.crew? block = some crew) :
    ∃ places, (grid.turns scheduling kernel geometry places).isDone block = true ∧
      ∀ other, other ≠ block →
        (grid.turns scheduling kernel geometry places).crew? other = grid.crew? other := by
  obtain ⟨hblock, hfollows⟩ := h.of_crew? hcrew
  obtain ⟨lanes, hover⟩ := Crew.Follows.exists_run hfollows (hends block hblock)
  have hfault := ((Crew.Follows.run hfollows lanes).not_poisoned (hends block hblock)).2
  refine ⟨lanes.map fun lane => (block, lane), ?_, fun other hne => ?_⟩
  · rw [turns_of_block scheduling hcrew, isDone, crew?_set _ _ (lt_of_crew? hcrew), if_pos rfl]
    simp [hover, hfault]
  · rw [turns_of_block scheduling hcrew, crew?_set _ _ (lt_of_crew? hcrew), if_neg (Ne.symm hne)]

/-- So can a block that may begin. -/
theorem Follows.exists_done_of_mayBegin (h : Follows plan grid log)
    (hends : ∀ block < geometry.blocks, Block.EndWell geometry.threads (plan.stops block))
    (scheduling : Scheduling) {block : Nat} (hblock : block < geometry.blocks)
    (hmay : grid.mayBegin scheduling block = true) :
    ∃ places, (grid.turns scheduling kernel geometry places).isDone block = true ∧
      ∀ other, other ≠ block →
        (grid.turns scheduling kernel geometry places).crew? other = grid.crew? other := by
  cases hcrew : grid.crew? block with
  | some crew => exact h.exists_done hends scheduling hcrew
  | none =>
    have hlength : block < grid.crews.length := by rw [h.length]; exact hblock
    have hturn : grid.turn scheduling kernel geometry (block, 0) =
        grid.begun kernel geometry block := by
      unfold Grid.turn
      rw [hcrew]
      exact if_pos hmay
    have hset : ∀ other, (grid.begun kernel geometry block).crew? other =
        if block = other then some (Crew.start plan.slots (kernel.lanes geometry block))
        else grid.crew? other := by
      intro other
      rw [begun_eq plan, crew?_set grid _ hlength]
    obtain ⟨places, hdone, hothers⟩ := (h.begun hcrew hblock).exists_done hends scheduling
      (by rw [hset, if_pos rfl])
    rw [← hturn] at hdone hothers
    refine ⟨(block, 0) :: places, hdone, fun other hne => (hothers other hne).trans ?_⟩
    rw [hturn, hset, if_neg (Ne.symm hne)]

theorem nodup_order (scheduling : Scheduling) (blocks : Nat) : (scheduling.order blocks).Nodup :=
  (scheduling.perm_order blocks).nodup_iff.mpr List.nodup_range

theorem mem_order {scheduling : Scheduling} {blocks block : Nat} :
    block ∈ scheduling.order blocks ↔ block < blocks :=
  (scheduling.perm_order blocks).mem_iff.trans List.mem_range

/-- The blocks before one in the order of a launch. -/
theorem takeWhile_order {scheduling : Scheduling} {blocks block : Nat} {done rest : List Nat}
    (horder : scheduling.order blocks = done ++ block :: rest) :
    (scheduling.order blocks).takeWhile (· ≠ block) = done := by
  have hfresh : block ∉ done := by
    have hnodup := nodup_order scheduling blocks
    rw [horder] at hnodup
    intro hin
    exact (List.nodup_append.mp hnodup).2.2 block hin block List.mem_cons_self rfl
  rw [horder, List.takeWhile_append_of_pos, List.takeWhile_cons_of_neg (by simp), List.append_nil]
  intro other hother
  simp only [ne_eq, decide_not, Bool.not_eq_true', decide_eq_false_iff_not]
  rintro rfl
  exact hfresh hother

/-- A block may begin when those before it have ended without a fault. -/
theorem mayBegin_of_done {scheduling : Scheduling} {block : Nat} {done rest : List Nat}
    (horder : scheduling.order grid.crews.length = done ++ block :: rest)
    (hdone : ∀ other ∈ done, grid.isDone other = true) : grid.mayBegin scheduling block = true := by
  have hbefore := List.all_eq_true.mpr hdone
  rw [← takeWhile_order horder] at hbefore
  cases scheduling with
  | parallel => rfl
  | _ => exact hbefore

/-- The blocks of a launch can be brought to their end in the order of its configuration. -/
theorem Follows.exists_all_done
    (hends : ∀ block < geometry.blocks, Block.EndWell geometry.threads (plan.stops block))
    (scheduling : Scheduling) :
    ∀ (rest done : List Nat) (grid : Grid σ α) (log : List ((Nat × Nat) × Deed σ α)),
      Follows plan grid log → scheduling.order geometry.blocks = done ++ rest →
      (∀ block ∈ done, grid.isDone block = true) →
      ∃ places, ∀ block < geometry.blocks,
        (grid.turns scheduling kernel geometry places).isDone block = true
  | [], done, grid, log, _, horder, hdone => by
    refine ⟨[], fun block hblock => hdone block ?_⟩
    rw [List.append_nil] at horder
    rw [← horder]
    exact mem_order.mpr hblock
  | block :: rest, done, grid, log, h, horder, hdone => by
    have hmem : block ∈ scheduling.order geometry.blocks := by
      rw [horder]
      exact List.mem_append_right _ List.mem_cons_self
    have hmay : grid.mayBegin scheduling block = true := mayBegin_of_done (h.length ▸ horder) hdone
    obtain ⟨places, hblockDone, hothers⟩ :=
      h.exists_done_of_mayBegin hends scheduling (mem_order.mp hmem) hmay
    have hdone' : ∀ other ∈ done ++ [block],
        (grid.turns scheduling kernel geometry places).isDone other = true := by
      intro other hother
      by_cases he : other = block
      · rw [he]
        exact hblockDone
      · rcases List.mem_append.mp hother with hother | hother
        · have hold := hdone other hother
          unfold isDone at hold ⊢
          rw [hothers other he]
          exact hold
        · exact absurd (List.mem_singleton.mp hother) he
    obtain ⟨more, hmore⟩ := exists_all_done hends scheduling rest (done ++ [block]) _ _
      (h.turns scheduling places) (by rw [horder, List.append_assoc]; rfl) hdone'
    refine ⟨places ++ more, fun other hother => ?_⟩
    rw [turns_append]
    exact hmore other hother

/-- **Every launch that keeps to a plan that ends well can be brought to its end.** -/
theorem Follows.exists_run (h : Follows plan grid log)
    (hends : ∀ block < geometry.blocks, Block.EndWell geometry.threads (plan.stops block))
    (scheduling : Scheduling) :
    ∃ places, (grid.turns scheduling kernel geometry places).isOver = true := by
  obtain ⟨places, hdone⟩ := exists_all_done hends scheduling (scheduling.order geometry.blocks) [] grid
    log h rfl (fun _ h => absurd h List.not_mem_nil)
  refine ⟨places, ?_⟩
  have hlength := (h.turns scheduling places).length
  have hcrew : ∀ block < geometry.blocks, ∃ crew,
      (grid.turns scheduling kernel geometry places).crew? block = some crew ∧ crew.isOver = true := by
    intro block hblock
    have hblockDone := hdone block hblock
    unfold isDone at hblockDone
    cases hget : (grid.turns scheduling kernel geometry places).crew? block with
    | none =>
      rw [hget] at hblockDone
      cases hblockDone
    | some crew =>
      rw [hget] at hblockDone
      simp only [Option.any_some, Bool.and_eq_true] at hblockDone
      exact ⟨crew, rfl, hblockDone.1⟩
  simp only [isOver, hlength, Bool.and_eq_true, Bool.or_eq_true, List.all_eq_true, List.mem_range]
  refine ⟨fun block hblock => ?_, .inl fun block hblock => ?_⟩
  · obtain ⟨crew, hget, hover⟩ := hcrew block hblock
    rw [hget]
    exact hover
  · obtain ⟨crew, hget, _⟩ := hcrew block hblock
    rw [hget]
    rfl

end Grid

end BlockMachine
