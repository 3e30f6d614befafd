import BlockMachine.Interleaving.ThreadedGrid
import BlockMachine.Proofs.Interleaving.TeamRest
import BlockMachine.Proofs.Launch.Alone
import BlockMachine.Proofs.Launch.InOrder

/-!
# Launches whose lanes are threads are launches

What the lanes of a launch do that are threads, they also do in a `Grid`, whose blocks begin at once and whose
barriers open at once.

* `ThreadedGrid.Mirrors` — a `Grid` that stands where a threaded launch stands.
* `ThreadedGrid.Mirrors.turn`, `ThreadedGrid.Mirrors.turns` — every turn of a threaded launch is a turn of the `Grid`,
  or none, and so are several turns.
* `ThreadedGrid.exists_run_grid` — every threaded launch leaves what some run of a `Grid` leaves, and its lanes do the
  same things in the same order.
* `ThreadedGrid.orderly_run` — one at a time, a block begins when those before it have ended well.
-/

set_option autoImplicit false

namespace BlockMachine

variable {σ α : Type}

/-- **A crew has a fault if and only if its team has told one** by its end. -/
theorem Team.Mirrors.fault_eq_none_iff {β : Type} {rounds lanes segment : Nat} {team : Team σ α β}
    {crew : Crew σ α β} {log : List (Nat × Deed σ α)} (h : Team.Mirrors rounds team crew)
    (habreast : Crew.Abreast lanes segment crew log) (hover : team.isOver = true) (hstarted : team.refusal = none) :
    crew.fault = none ↔ team.fault = none := by
  constructor
  · intro hnone
    by_contra htold
    obtain ⟨panic, hfault⟩ := Option.ne_none_iff_exists'.mp htold
    obtain ⟨hrelease, lane, hthread⟩ := h.kept.fault panic hfault
    have hsome := habreast.faulted lane panic (h.station_of_unwound hthread) hrelease
    rw [hnone] at hsome
    cases hsome
  · intro hnone
    by_contra hfaulted
    obtain ⟨panic, hfault⟩ := Option.ne_none_iff_exists'.mp hfaulted
    obtain ⟨hrelease, lane, hstation⟩ := habreast.fault panic hfault
    have hsome := h.kept.told lane panic (h.thread_of_unwound hover hstarted hstation) hrelease
    rw [hnone] at hsome
    cases hsome

namespace ThreadedGrid

variable {scheduling : Scheduling} {spawner : Spawner} {kernel : Kernel σ α} {geometry : Geometry}
  {grid : ThreadedGrid σ α} {coarse : Grid σ α} {store : Store α} {places : List (Nat × Team.Turn)}

/-! ## Blocks -/

theorem team?_set (grid : ThreadedGrid σ α) (store : Store α) {block : Nat} (hblock : block < grid.teams.length)
    (team : Team σ α Unit) (other : Nat) :
    team? ⟨grid.teams.set block (some team), store⟩ other =
      if block = other then some team else grid.team? other := by
  unfold team?
  by_cases h : block = other
  · subst h
    rw [if_pos rfl, List.getElem?_set_self hblock]
    rfl
  · rw [if_neg h, List.getElem?_set_ne h]

theorem lt_of_team? {block : Nat} {team : Team σ α Unit} (h : grid.team? block = some team) :
    block < grid.teams.length := by
  unfold team? at h
  by_cases hlt : block < grid.teams.length
  · exact hlt
  · rw [List.getElem?_eq_none (Nat.le_of_not_lt hlt)] at h
    cases h

/-- The turn of a block that has begun. -/
theorem turn_of_some (scheduling : Scheduling) (spawner : Spawner) (kernel : Kernel σ α) (geometry : Geometry)
    {block : Nat} {team : Team σ α Unit} (h : grid.team? block = some team) (turn : Team.Turn) :
    grid.turn scheduling spawner kernel geometry (block, turn) =
      ⟨grid.teams.set block (some (team.turn kernel.callbacks spawner block grid.store turn).1),
        (team.turn kernel.callbacks spawner block grid.store turn).2⟩ := by
  unfold ThreadedGrid.turn
  rw [h]

/-- The turn of a block that has not begun: it may begin. -/
theorem turn_of_none (scheduling : Scheduling) (spawner : Spawner) (kernel : Kernel σ α) (geometry : Geometry)
    {block : Nat} (h : grid.team? block = none) (turn : Team.Turn) :
    grid.turn scheduling spawner kernel geometry (block, turn) = grid ∨
      grid.mayBegin scheduling block = true ∧ block < grid.teams.length ∧
        ∃ slots, kernel.slots geometry.threads = .ok slots ∧
          grid.turn scheduling spawner kernel geometry (block, turn) =
            ⟨grid.teams.set block (some (Team.start slots (kernel.lanes geometry block))), grid.store⟩ := by
  unfold ThreadedGrid.turn
  rw [h]
  by_cases hmay : grid.mayBegin scheduling block = true
  · simp only [hmay, if_true]
    unfold begun
    cases hslots : kernel.slots geometry.threads with
    | error _ => exact .inl rfl
    | ok slots =>
      by_cases hblock : block < grid.teams.length
      · exact .inr ⟨trivial, hblock, slots, rfl, rfl⟩
      · -- there is no such block
        refine .inl ?_
        simp only
        rw [List.set_eq_of_length_le (Nat.le_of_not_lt hblock)]
  · simp only [hmay]
    exact .inl rfl

/-- A turn leaves the blocks alone whose turn it is not. -/
theorem team?_turn_of_ne {place : Nat × Team.Turn} {block : Nat} (h : place.1 ≠ block) :
    (grid.turn scheduling spawner kernel geometry place).team? block = grid.team? block := by
  obtain ⟨own, turn⟩ := place
  cases hteam : grid.team? own with
  | some team =>
    rw [turn_of_some scheduling spawner kernel geometry hteam, team?_set grid _ (lt_of_team? hteam), if_neg h]
  | none =>
    rcases turn_of_none scheduling spawner kernel geometry hteam turn with hsame | ⟨_, hblock, slots, _, hturn⟩
    · rw [hsame]
    · rw [hturn, team?_set grid _ hblock, if_neg h]

theorem team?_turn_of_some {block : Nat} {team : Team σ α Unit} (h : grid.team? block = some team)
    (turn : Team.Turn) :
    (grid.turn scheduling spawner kernel geometry (block, turn)).team? block =
      some (team.turn kernel.callbacks spawner block grid.store turn).1 := by
  rw [turn_of_some scheduling spawner kernel geometry h, team?_set grid _ (lt_of_team? h), if_pos rfl]

theorem length_turn (grid : ThreadedGrid σ α) (place : Nat × Team.Turn) :
    (grid.turn scheduling spawner kernel geometry place).teams.length = grid.teams.length := by
  obtain ⟨own, turn⟩ := place
  cases hteam : grid.team? own with
  | some team => rw [turn_of_some scheduling spawner kernel geometry hteam, List.length_set]
  | none =>
    rcases turn_of_none scheduling spawner kernel geometry hteam turn with hsame | ⟨_, _, slots, _, hturn⟩
    · rw [hsame]
    · rw [hturn, List.length_set]

/-- No block has begun at first. -/
theorem team?_start (geometry : Geometry) (store : Store α) (block : Nat) :
    (start geometry store : ThreadedGrid σ α).team? block = none := by
  unfold team? start
  rw [List.getElem?_replicate]
  split <;> rfl

theorem turns_append (grid : ThreadedGrid σ α) (early late : List (Nat × Team.Turn)) :
    grid.turns scheduling spawner kernel geometry (early ++ late) =
      (grid.turns scheduling spawner kernel geometry early).turns scheduling spawner kernel geometry late :=
  List.foldl_append

/-- **What a turn keeps holds after every turn of a launch.** -/
theorem turns_induct {Q : ThreadedGrid σ α → Prop}
    (hturn : ∀ grid place, Q grid → Q (grid.turn scheduling spawner kernel geometry place)) (h : Q grid)
    (places : List (Nat × Team.Turn)) : Q (grid.turns scheduling spawner kernel geometry places) := by
  induction places generalizing grid with
  | nil => exact h
  | cons place rest ih => exact ih (hturn grid place h)

/-! ## Launches that have ended -/

theorem isOver_iff : grid.isOver = true ↔
    (∀ block team, grid.team? block = some team → team.isOver = true) ∧
      ((∀ block < grid.teams.length, (grid.team? block).isSome = true) ∨
        ∃ block, (grid.failure? block).isSome = true) := by
  simp only [isOver, Bool.and_eq_true, Bool.or_eq_true, List.all_eq_true, List.any_eq_true, List.mem_range,
    Option.all_eq_true]
  refine ⟨fun ⟨hteams, hends⟩ => ⟨fun block team hteam => hteams block (lt_of_team? hteam) team hteam, ?_⟩,
    fun ⟨hteams, hends⟩ => ⟨fun block _ => hteams block, ?_⟩⟩
  · exact hends.imp_right fun ⟨block, _, hfailure⟩ => ⟨block, hfailure⟩
  · refine hends.imp_right fun ⟨block, hfailure⟩ => ⟨block, ?_, hfailure⟩
    obtain ⟨error, herror⟩ := Option.isSome_iff_exists.mp hfailure
    obtain ⟨team, hteam, _⟩ := Option.bind_eq_some_iff.mp herror
    exact lt_of_team? hteam

/-! ## Blocks that have ended well -/

theorem isDone_iff {block : Nat} : grid.isDone block = true ↔
    ∃ team, grid.team? block = some team ∧ team.isOver = true ∧ team.failure? block = none := by
  unfold isDone
  rw [Option.any_eq_true]
  simp only [Bool.and_eq_true, Option.isNone_iff_eq_none]

/-- A block that has ended well stays so. -/
theorem isDone_turn {block : Nat} (h : grid.isDone block = true) (place : Nat × Team.Turn) :
    (grid.turn scheduling spawner kernel geometry place).isDone block = true := by
  obtain ⟨team, hteam, hover, hwell⟩ := isDone_iff.mp h
  obtain ⟨own, turn⟩ := place
  by_cases he : own = block
  · subst he
    obtain ⟨hover', hwell'⟩ := Team.isOver_turn hover hwell kernel.callbacks spawner grid.store turn
    exact isDone_iff.mpr ⟨_, team?_turn_of_some hteam turn, hover', hwell'⟩
  · exact isDone_iff.mpr ⟨team, (team?_turn_of_ne he).trans hteam, hover, hwell⟩

/-- A block may begin when those before it have ended well. -/
theorem isDone_of_mayBegin {block other : Nat} (h : grid.mayBegin scheduling block = true)
    (hother : other < grid.teams.length) (hbefore : scheduling.Before other block) :
    grid.isDone other = true := by
  cases scheduling with
  | parallel => exact hbefore.elim
  | sequential =>
    exact List.all_eq_true.mp h other (mem_takeWhile_ne (fun _ _ => Nat.lt_asymm)
      List.pairwise_lt_range (List.mem_range.mpr hother) hbefore)
  | reversed =>
    have hsorted : (List.range grid.teams.length).reverse.Pairwise (fun a b => b < a) :=
      List.pairwise_reverse.mpr List.pairwise_lt_range
    exact List.all_eq_true.mp h other (mem_takeWhile_ne (fun _ _ => Nat.lt_asymm) hsorted
      (List.mem_reverse.mpr (List.mem_range.mpr hother)) hbefore)

/-- A block may begin when those before it in the order of the launch have ended well. -/
theorem mayBegin_of_done {block : Nat} {done rest : List Nat}
    (horder : scheduling.order grid.teams.length = done ++ block :: rest)
    (hdone : ∀ other ∈ done, grid.isDone other = true) : grid.mayBegin scheduling block = true := by
  have hbefore := List.all_eq_true.mpr hdone
  rw [← Grid.takeWhile_order horder] at hbefore
  cases scheduling with
  | parallel => rfl
  | _ => exact hbefore

/-- A launch under way that has begun its blocks in order. -/
structure Orderly (scheduling : Scheduling) (blocks : Nat) (grid : ThreadedGrid σ α) : Prop where
  length : grid.teams.length = blocks
  done : ∀ block, (grid.team? block).isSome → ∀ other < blocks, scheduling.Before other block →
    grid.isDone other = true

theorem Orderly.turn {blocks : Nat} (h : Orderly scheduling blocks grid) (place : Nat × Team.Turn) :
    Orderly scheduling blocks (grid.turn scheduling spawner kernel geometry place) := by
  obtain ⟨own, turn⟩ := place
  refine ⟨(length_turn ..).trans h.length, fun block hbegun other hother hbefore => isDone_turn ?_ (own, turn)⟩
  by_cases he : own = block
  · subst he
    cases hteam : grid.team? own with
    | some team => exact h.done own (by rw [hteam]; rfl) other hother hbefore
    | none =>
      rcases turn_of_none scheduling spawner kernel geometry hteam turn with hsame | ⟨hmay, _⟩
      · rw [hsame, hteam] at hbegun
        cases hbegun
      · exact isDone_of_mayBegin hmay (h.length ▸ hother) hbefore
  · rw [team?_turn_of_ne he] at hbegun
    exact h.done block hbegun other hother hbefore

/-- **A threaded launch begins its blocks in order.** -/
theorem orderly_run (scheduling : Scheduling) (spawner : Spawner) (kernel : Kernel σ α) (geometry : Geometry)
    (store : Store α) (places : List (Nat × Team.Turn)) :
    Orderly scheduling geometry.blocks (run scheduling spawner kernel geometry store places) := by
  refine turns_induct (fun _ place h => h.turn place) ⟨List.length_replicate .., ?_⟩ places
  intro block hbegun
  rw [team?_start] at hbegun
  cases hbegun

/-! ## The launch that mirrors a threaded one -/

/-- A block of a `Grid` that stands where a block of a threaded launch stands. -/
inductive Mirrored : Option (Team σ α Unit) → Option (Crew σ α Unit) → Prop
  | none : Mirrored none none
  | some {team : Team σ α Unit} {crew : Crew σ α Unit} (rounds : Nat) (h : Team.Mirrors rounds team crew) :
    Mirrored (some team) (some crew)

/-- A `Grid` that stands where a threaded launch stands. -/
structure Mirrors (grid : ThreadedGrid σ α) (coarse : Grid σ α) : Prop where
  store : coarse.store = grid.store
  length : coarse.crews.length = grid.teams.length
  blocks : ∀ block, Mirrored (grid.team? block) (coarse.crew? block)

theorem mirrors_start (geometry : Geometry) (store : Store α) :
    Mirrors (start geometry store : ThreadedGrid σ α) (Grid.start geometry store) where
  store := rfl
  length := List.length_replicate.trans List.length_replicate.symm
  blocks block := by
    rw [team?_start, Grid.crew?_start]
    exact .none

theorem Mirrors.crew?_of_none (h : Mirrors grid coarse) {block : Nat} (hteam : grid.team? block = none) :
    coarse.crew? block = none := by
  have hblock := h.blocks block
  rw [hteam] at hblock
  cases hcrew : coarse.crew? block with
  | none => rfl
  | some crew =>
    rw [hcrew] at hblock
    cases hblock

theorem Mirrors.crew?_of_some (h : Mirrors grid coarse) {block : Nat} {team : Team σ α Unit}
    (hteam : grid.team? block = some team) :
    ∃ rounds crew, coarse.crew? block = some crew ∧ Team.Mirrors rounds team crew := by
  have hblock := h.blocks block
  rw [hteam] at hblock
  cases hcrew : coarse.crew? block with
  | none =>
    rw [hcrew] at hblock
    cases hblock
  | some crew =>
    rw [hcrew] at hblock
    cases hblock with
    | some rounds hmirrors => exact ⟨rounds, crew, rfl, hmirrors⟩

theorem Mirrors.team?_of_some (h : Mirrors grid coarse) {block : Nat} {crew : Crew σ α Unit}
    (hcrew : coarse.crew? block = some crew) :
    ∃ rounds team, grid.team? block = some team ∧ Team.Mirrors rounds team crew := by
  have hblock := h.blocks block
  rw [hcrew] at hblock
  cases hteam : grid.team? block with
  | none =>
    rw [hteam] at hblock
    cases hblock
  | some team =>
    rw [hteam] at hblock
    cases hblock with
    | some rounds hmirrors => exact ⟨rounds, team, rfl, hmirrors⟩

/-- Two blocks go on that stand in the same place. -/
theorem Mirrors.set (h : Mirrors grid coarse) {block rounds : Nat} (hblock : block < grid.teams.length)
    {team : Team σ α Unit} {crew : Crew σ α Unit} (hmirrors : Team.Mirrors rounds team crew) (store : Store α) :
    Mirrors ⟨grid.teams.set block (some team), store⟩ ⟨coarse.crews.set block (some crew), store⟩ where
  store := rfl
  length := by
    rw [List.length_set, List.length_set]
    exact h.length
  blocks other := by
    rw [team?_set grid store hblock, Grid.crew?_set coarse store (h.length.symm ▸ hblock)]
    by_cases he : block = other
    · rw [if_pos he, if_pos he]
      exact .some rounds hmirrors
    · rw [if_neg he, if_neg he]
      exact h.blocks other

/-- A block goes on of which the `Grid` sees nothing. -/
theorem Mirrors.set_alone (h : Mirrors grid coarse) {block rounds : Nat} {team team' : Team σ α Unit}
    {crew : Crew σ α Unit} (hteam : grid.team? block = some team) (hcrew : coarse.crew? block = some crew)
    (hmirrors : Team.Mirrors rounds team' crew) :
    Mirrors ⟨grid.teams.set block (some team'), grid.store⟩ coarse := by
  have hset := h.set (lt_of_team? hteam) hmirrors grid.store
  have hsame : coarse.crews.set block (some crew) = coarse.crews := by
    obtain ⟨hlt, hget⟩ := List.getElem?_eq_some_iff.mp (Grid.getElem?_of_crew? hcrew)
    rw [← hget, List.set_getElem_self]
  rw [hsame, ← h.store] at hset
  rw [← h.store]
  exact hset

theorem run_concat (scheduling : Scheduling) (kernel : Kernel σ α) (geometry : Geometry) (store : Store α)
    (places : List (Nat × Nat)) (place : Nat × Nat) :
    Grid.run scheduling kernel geometry store (places ++ [place]) =
      (Grid.run scheduling kernel geometry store places).turn scheduling kernel geometry place :=
  Grid.turns_append scheduling kernel geometry (Grid.start geometry store) places [place]

section Turn

variable {steps : List (Nat × Nat)}

/-- The lanes of a block that has ended well have come to their ends without a fault. -/
theorem Mirrors.isDone (h : Mirrors grid (Grid.run scheduling kernel geometry store steps)) {block : Nat}
    (hdone : grid.isDone block = true) :
    (Grid.run scheduling kernel geometry store steps).isDone block = true := by
  obtain ⟨team, hteam, hover, hwell⟩ := isDone_iff.mp hdone
  obtain ⟨rounds, crew, hcrew, hmirrors⟩ := h.crew?_of_some hteam
  obtain ⟨segment, habreast⟩ := Grid.abreast_of_crew? hcrew
  obtain ⟨hstarted, hfault⟩ := Team.eq_none_of_failure? hwell
  exact Grid.isDone_iff.mpr ⟨crew, hcrew, hmirrors.crew_isOver hover hstarted,
    (hmirrors.fault_eq_none_iff habreast hover hstarted).mpr hfault⟩

/-- A block that may begin in a threaded launch may do so in the `Grid`. -/
theorem Mirrors.mayBegin (h : Mirrors grid (Grid.run scheduling kernel geometry store steps)) {block : Nat}
    (hmay : grid.mayBegin scheduling block = true) :
    (Grid.run scheduling kernel geometry store steps).mayBegin scheduling block = true := by
  cases scheduling with
  | parallel => rfl
  | _ =>
    refine List.all_eq_true.mpr fun other hother => h.isDone (List.all_eq_true.mp hmay other ?_)
    rwa [h.length] at hother

/-- With some more turns a `Grid` comes to mirror a threaded launch, and in these its lanes do certain things. -/
def Meets (scheduling : Scheduling) (kernel : Kernel σ α) (geometry : Geometry) (store : Store α)
    (steps : List (Nat × Nat)) (after : ThreadedGrid σ α) (deeds : List ((Nat × Nat) × Deed σ α)) : Prop :=
  ∃ more, Mirrors after (Grid.run scheduling kernel geometry store (steps ++ more)) ∧
    Grid.logFrom scheduling kernel geometry (Grid.run scheduling kernel geometry store steps) more = deeds

theorem Mirrors.meets (h : Mirrors grid (Grid.run scheduling kernel geometry store steps)) :
    Meets scheduling kernel geometry store steps grid [] :=
  ⟨[], by rwa [List.append_nil], rfl⟩

/-- A block begins. -/
theorem Mirrors.meets_begun (h : Mirrors grid (Grid.run scheduling kernel geometry store steps)) {block : Nat}
    (hteam : grid.team? block = none) (hmay : grid.mayBegin scheduling block = true)
    (hblock : block < grid.teams.length) {slots : Array σ} (hslots : kernel.slots geometry.threads = .ok slots) :
    Meets scheduling kernel geometry store steps
      ⟨grid.teams.set block (some (Team.start slots (kernel.lanes geometry block))), grid.store⟩ [] := by
  have hcrew := h.crew?_of_none hteam
  have hcoarse : (Grid.run scheduling kernel geometry store steps).turn scheduling kernel geometry (block, 0) =
      ⟨(Grid.run scheduling kernel geometry store steps).crews.set block
        (some (Crew.start slots (kernel.lanes geometry block))), grid.store⟩ := by
    unfold Grid.turn
    rw [hcrew]
    simp only [h.mayBegin hmay, if_true, Grid.begun, hslots, h.store]
  refine ⟨[(block, 0)], ?_, ?_⟩
  · rw [run_concat, hcoarse]
    exact h.set hblock (Team.mirrors_start slots _) grid.store
  · rw [Grid.logFrom, Grid.deed?_of_none hcrew]
    rfl

/-- A block goes on. -/
theorem Mirrors.meets_turn (h : Mirrors grid (Grid.run scheduling kernel geometry store steps)) (spawner : Spawner)
    {block : Nat} {team : Team σ α Unit} (hteam : grid.team? block = some team) (turn : Team.Turn) :
    Meets scheduling kernel geometry store steps
      ⟨grid.teams.set block (some (team.turn kernel.callbacks spawner block grid.store turn).1),
        (team.turn kernel.callbacks spawner block grid.store turn).2⟩
      ((team.deed? turn).map fun entry => ((block, entry.1), entry.2)).toList := by
  obtain ⟨rounds, crew, hcrew, hmirrors⟩ := h.crew?_of_some hteam
  have hechoes := hmirrors.echoes kernel.callbacks spawner block grid.store turn
  generalize team.turn kernel.callbacks spawner block grid.store turn = after at hechoes ⊢
  generalize team.deed? turn = deed at hechoes ⊢
  cases hechoes with
  | rests _ => exact (h.set_alone hteam hcrew hmirrors).meets
  | silent rounds' hmirrors' _ => exact (h.set_alone hteam hcrew hmirrors').meets
  | @heard team' crew' store' _ rounds' lane _ hcrew' hmirrors' hheard =>
    have hcoarse : (Grid.run scheduling kernel geometry store steps).turn scheduling kernel geometry (block, lane) =
        ⟨(Grid.run scheduling kernel geometry store steps).crews.set block (some crew'), store'⟩ := by
      unfold Grid.turn
      rw [hcrew]
      simp only [h.store, hcrew']
    refine ⟨[(block, lane)], ?_, ?_⟩
    · rw [run_concat, hcoarse]
      exact h.set (lt_of_team? hteam) hmirrors' store'
    · rw [hheard, Grid.logFrom, Grid.deed?_of_some hcrew]
      cases crew.deed? lane <;> rfl

/-- **A turn of a threaded launch is a turn of the `Grid`, or none.** -/
theorem Mirrors.turn (h : Mirrors grid (Grid.run scheduling kernel geometry store steps)) (spawner : Spawner)
    (place : Nat × Team.Turn) :
    Meets scheduling kernel geometry store steps (grid.turn scheduling spawner kernel geometry place)
      (grid.deed? place).toList := by
  obtain ⟨block, turn⟩ := place
  cases hteam : grid.team? block with
  | none =>
    have hdeed : grid.deed? (block, turn) = none := by simp only [deed?, hteam, Option.bind_none, Option.map_none]
    rw [hdeed]
    rcases turn_of_none scheduling spawner kernel geometry hteam turn with hsame | ⟨hmay, hblock, _, hslots, hturn⟩
    · rw [hsame]
      exact h.meets
    · rw [hturn]
      exact h.meets_begun hteam hmay hblock hslots
  | some team =>
    have hdeed : grid.deed? (block, turn) = (team.deed? turn).map fun entry => ((block, entry.1), entry.2) := by
      simp only [deed?, hteam, Option.bind_some]
    rw [hdeed, turn_of_some scheduling spawner kernel geometry hteam turn]
    exact h.meets_turn spawner hteam turn

/-- **So are several turns.** -/
theorem Mirrors.turns (spawner : Spawner) (places : List (Nat × Team.Turn)) {grid : ThreadedGrid σ α}
    {steps : List (Nat × Nat)} (h : Mirrors grid (Grid.run scheduling kernel geometry store steps)) :
    Meets scheduling kernel geometry store steps (grid.turns scheduling spawner kernel geometry places)
      (logFrom scheduling spawner kernel geometry grid places) := by
  induction places generalizing grid steps with
  | nil => exact h.meets
  | cons place rest ih =>
    obtain ⟨first, hfirst, hfirstLog⟩ := h.turn spawner place
    obtain ⟨more, hmore, hmoreLog⟩ := ih hfirst
    have happend : Grid.run scheduling kernel geometry store (steps ++ first) =
        (Grid.run scheduling kernel geometry store steps).turns scheduling kernel geometry first :=
      Grid.turns_append scheduling kernel geometry (Grid.start geometry store) steps first
    refine ⟨first ++ more, ?_, ?_⟩
    · rw [← List.append_assoc]
      exact hmore
    · rw [Grid.logFrom_append, hfirstLog, logFrom, ← hmoreLog, happend]

end Turn

/-- **A threaded launch is a launch**: it leaves what some run of a `Grid` leaves, and its lanes do in it what they do
in that run. -/
theorem exists_run_grid (scheduling : Scheduling) (spawner : Spawner) (kernel : Kernel σ α) (geometry : Geometry)
    (store : Store α) (places : List (Nat × Team.Turn)) :
    ∃ steps, Mirrors (run scheduling spawner kernel geometry store places)
        (Grid.run scheduling kernel geometry store steps) ∧
      Grid.log scheduling kernel geometry store steps =
        log scheduling spawner kernel geometry store places := by
  have hstart : Mirrors (start geometry store) (Grid.run scheduling kernel geometry store []) :=
    mirrors_start geometry store
  obtain ⟨steps, hmirrors, hlog⟩ := hstart.turns spawner places
  exact ⟨steps, hmirrors, hlog⟩

end ThreadedGrid

end BlockMachine
