import BlockMachine.Proofs.Interleaving.Grid

/-!
# What a turn does

Nothing is assumed here about a kernel: its lanes may panic, end early, or get in each other's way.

* `Crew.Turn` — all that a turn of a lane can do to its block, and `Crew.turn_spec` says that it does
  one of these things.
* `Crew.Move` — all that can become of a lane in a turn, and `Crew.Turn.move` says so.
* `Grid.crew?_turn_of_ne`, `Grid.crew?_turn_of_some`, `Grid.crew?_turn_of_none` — what a turn does to the
  blocks of a launch.
* `Grid.keeps_run`, `Grid.ofLanes_run` — what every turn of a block keeps holds of every block of every
  launch, and what every move of a lane keeps holds of every lane.
* `Grid.orderly_run` — one at a time, a block begins when those before it have ended without a fault.
-/

set_option autoImplicit false

namespace BlockMachine

open History

variable {σ α β : Type}

namespace Crew

/-! ## Turns of a lane -/

/-- Whether a lane can do nothing: it is not there, is over, or waits at a barrier. -/
def Rests (crew : Crew σ α β) (lane : Nat) : Prop :=
  match crew.stations[lane]? with
  | some (.running _) => False
  | some (.arrived _) => crew.poisoned = false
  | _ => True

/-- What a turn of a lane does: the crew after it, and the deed that it is. -/
inductive Turn (callbacks : Callbacks σ α) (crew : Crew σ α β) (lane : Nat) (store : Store α) :
    Crew σ α β → Option (Deed σ α) → Prop
  | rests (h : crew.Rests lane) : Turn callbacks crew lane store crew none
  | finishes {result : β} (h : crew.stations[lane]? = some (.running (.done result))) :
    Turn callbacks crew lane store (crew.moved lane (.finished result)) (some .ends)
  | faults {panic : Panic} (h : crew.stations[lane]? = some (.running (.fault panic))) :
    Turn callbacks crew lane store (crew.unwound lane panic) (some .ends)
  | asks {request : Request σ α} {next : request.Answer → Lane σ α β} {answer : request.Answer}
    (h : crew.stations[lane]? = some (.running (.ask request next)))
    (hanswer : request.answer callbacks ⟨crew.slots, store.journal.calls⟩ = .ok answer) :
    Turn callbacks crew lane store
      ({ crew with slots := (request.see ⟨crew.slots, store.journal.calls⟩).slots }.moved lane
        (.running (next answer))) (some (.asks request))
  /-- The request panics. -/
  | panics {request : Request σ α} {next : request.Answer → Lane σ α β} {panic : Panic}
    (h : crew.stations[lane]? = some (.running (.ask request next)))
    (hanswer : request.answer callbacks ⟨crew.slots, store.journal.calls⟩ = .error panic) :
    Turn callbacks crew lane store
      ({ crew with slots := (request.see ⟨crew.slots, store.journal.calls⟩).slots }.unwound lane panic)
      (some (.asks request))
  | waits {next : Lane σ α β} (h : crew.stations[lane]? = some (.running (.barrier next)))
    (hp : crew.poisoned = false)
    (hshut : (crew.stations.set lane (.arrived next)).all Station.isArrived = false) :
    Turn callbacks crew lane store (crew.moved lane (.arrived next)) (some .arrives)
  /-- The last lane arrives at a barrier, and all go on. -/
  | opens {next : Lane σ α β} (h : crew.stations[lane]? = some (.running (.barrier next)))
    (hp : crew.poisoned = false)
    (hall : (crew.stations.set lane (.arrived next)).all Station.isArrived = true) :
    Turn callbacks crew lane store
      { crew with stations := (crew.stations.set lane (.arrived next)).map Station.passed }
      (some .arrives)
  /-- The lane comes to a barrier that will not open. -/
  | turnedAway {next : Lane σ α β} (h : crew.stations[lane]? = some (.running (.barrier next)))
    (hp : crew.poisoned = true) :
    Turn callbacks crew lane store (crew.unwound lane (.raised .barrierPoisoned)) (some .arrives)
  /-- The lane is at such a barrier. -/
  | released {next : Lane σ α β} (h : crew.stations[lane]? = some (.arrived next))
    (hp : crew.poisoned = true) :
    Turn callbacks crew lane store (crew.unwound lane (.raised .barrierPoisoned)) none

/-- **A turn does one of these things.** -/
theorem turn_spec (callbacks : Callbacks σ α) (crew : Crew σ α β) (lane : Nat) (store : Store α) :
    Turn callbacks crew lane store (crew.turn callbacks lane store).1 (crew.deed? lane) := by
  unfold Crew.turn Crew.deed?
  cases hs : crew.stations[lane]? with
  | none => exact .rests (by simp [Rests, hs])
  | some station =>
    cases station with
    | finished result => exact .rests (by simp [Rests, hs])
    | unwound panic => exact .rests (by simp [Rests, hs])
    | arrived next =>
      cases hp : crew.poisoned with
      | false => exact .rests (by simp [Rests, hs, hp])
      | true => exact .released hs hp
    | running program =>
      cases program with
      | done result => exact .finishes hs
      | fault panic => exact .faults hs
      | ask request next =>
        show Turn callbacks crew lane store
          (crew.answered lane next (Machine.perform callbacks request ⟨crew.slots, store⟩)).1 _
        rw [Machine.perform_eq]
        cases hanswer : request.answer callbacks (⟨crew.slots, store⟩ : Machine σ α).sight with
        | ok answer => exact .asks hs hanswer
        | error panic => exact .panics hs hanswer
      | barrier next =>
        show Turn callbacks crew lane store (crew.atBarrier lane next) _
        unfold atBarrier
        by_cases hp : crew.poisoned = true
        · rw [if_pos hp]
          exact .turnedAway hs hp
        · rw [if_neg hp]
          by_cases hall : (crew.stations.set lane (.arrived next)).all Station.isArrived = true
          · rw [show (crew.moved lane (.arrived next)).opened = _ from if_pos hall]
            exact .opens hs (Bool.eq_false_iff.mpr hp) hall
          · rw [show (crew.moved lane (.arrived next)).opened = _ from if_neg hall]
            exact .waits hs (Bool.eq_false_iff.mpr hp) (Bool.eq_false_iff.mpr hall)

/-- A lane that rests is left where it is. -/
theorem turn_of_rests {crew : Crew σ α β} {lane : Nat} (h : crew.Rests lane)
    (callbacks : Callbacks σ α) (store : Store α) : crew.turn callbacks lane store = (crew, store) := by
  unfold Rests at h
  unfold Crew.turn
  cases hs : crew.stations[lane]? with
  | none => rfl
  | some station =>
    rw [hs] at h
    cases station with
    | finished _ => rfl
    | unwound _ => rfl
    | running _ => exact h.elim
    | arrived _ => simp only [show crew.poisoned = false from h, Bool.false_eq_true, if_false]

/-- The lanes of a block that is over rest. -/
theorem rests_of_isOver {crew : Crew σ α β} (h : crew.isOver = true) (lane : Nat) :
    crew.Rests lane := by
  unfold Rests
  cases hs : crew.stations[lane]? with
  | none => trivial
  | some station =>
    have hstation := List.all_eq_true.mp h station (List.mem_of_getElem? hs)
    cases station with
    | finished _ => trivial
    | unwound _ => trivial
    | running _ => cases hstation
    | arrived _ => cases hstation

/-- The first fault stays. -/
theorem turn_fault {callbacks : Callbacks σ α} {crew crew' : Crew σ α β} {lane : Nat} {store : Store α}
    {deed : Option (Deed σ α)} (h : Turn callbacks crew lane store crew' deed) {panic : Panic}
    (hfault : crew.fault = some panic) : crew'.fault = some panic := by
  cases h <;> simp [unwound, moved, hfault]

/-- What becomes of a lane in a turn, and what it does: its own turn, or that of a lane which opens the
barrier at which it waits. -/
inductive Move (callbacks : Callbacks σ α) : Station σ α β → List (Deed σ α) → Station σ α β → Prop
  | stays (station : Station σ α β) : Move callbacks station [] station
  | finishes (result : β) : Move callbacks (.running (.done result)) [.ends] (.finished result)
  | faults (panic : Panic) : Move callbacks (.running (.fault panic)) [.ends] (.unwound panic)
  | asks {request : Request σ α} (next : request.Answer → Lane σ α β) {answer : request.Answer}
    (h : ∃ sight, request.answer callbacks sight = .ok answer) :
    Move callbacks (.running (.ask request next)) [.asks request] (.running (next answer))
  | panics {request : Request σ α} (next : request.Answer → Lane σ α β) {panic : Panic}
    (h : ∃ sight, request.answer callbacks sight = .error panic) :
    Move callbacks (.running (.ask request next)) [.asks request] (.unwound panic)
  | arrives (next : Lane σ α β) : Move callbacks (.running (.barrier next)) [.arrives] (.arrived next)
  /-- The lane is the last one to arrive. -/
  | goesThrough (next : Lane σ α β) :
    Move callbacks (.running (.barrier next)) [.arrives] (.running next)
  | goesOn (next : Lane σ α β) : Move callbacks (.arrived next) [] (.running next)
  | turnedAway (next : Lane σ α β) :
    Move callbacks (.running (.barrier next)) [.arrives] (.unwound (.raised .barrierPoisoned))
  | released (next : Lane σ α β) :
    Move callbacks (.arrived next) [] (.unwound (.raised .barrierPoisoned))

/-- **In a turn each lane makes one of these moves.** -/
theorem Turn.move {callbacks : Callbacks σ α} {crew crew' : Crew σ α β} {lane : Nat} {store : Store α}
    {deed : Option (Deed σ α)} (h : Turn callbacks crew lane store crew' deed) {other : Nat}
    {station' : Station σ α β} (hs' : crew'.stations[other]? = some station') :
    ∃ station, crew.stations[other]? = some station ∧
      Move callbacks station (if lane = other then deed.toList else []) station' := by
  -- a turn that changes the station of one lane only
  have hset : ∀ {now after : Station σ α β}, crew.stations[lane]? = some now →
      (crew.stations.set lane after)[other]? = some station' → Move callbacks now deed.toList after →
        ∃ station, crew.stations[other]? = some station ∧
          Move callbacks station (if lane = other then deed.toList else []) station' := by
    intro now after hnow hs' hmove
    by_cases he : lane = other
    · subst he
      rw [List.getElem?_set_self (List.getElem?_eq_some_iff.mp hnow).1] at hs'
      obtain rfl := Option.some.inj hs'
      exact ⟨now, hnow, by rwa [if_pos rfl]⟩
    · rw [List.getElem?_set_ne he] at hs'
      exact ⟨station', hs', by rw [if_neg he]; exact .stays _⟩
  cases h with
  | rests _ => exact ⟨station', hs', by rw [Option.toList_none, ite_self]; exact .stays _⟩
  | finishes h => exact hset h hs' (.finishes _)
  | faults h => exact hset h hs' (.faults _)
  | asks h hanswer => exact hset h hs' (.asks _ ⟨_, hanswer⟩)
  | panics h hanswer => exact hset h hs' (.panics _ ⟨_, hanswer⟩)
  | waits h _ _ => exact hset h hs' (.arrives _)
  | turnedAway h _ => exact hset h hs' (.turnedAway _)
  | released h _ => exact hset h hs' (.released _)
  | @opens next h _ hall =>
    rw [List.getElem?_map] at hs'
    obtain ⟨before, hbefore, rfl⟩ := Option.map_eq_some_iff.mp hs'
    have harrived := List.all_eq_true.mp hall before (List.mem_of_getElem? hbefore)
    by_cases he : lane = other
    · subst he
      rw [List.getElem?_set_self (List.getElem?_eq_some_iff.mp h).1] at hbefore
      obtain rfl := Option.some.inj hbefore
      exact ⟨_, h, by rw [if_pos rfl]; exact .goesThrough next⟩
    · rw [List.getElem?_set_ne he] at hbefore
      cases before with
      | arrived rest => exact ⟨_, hbefore, by rw [if_neg he]; exact .goesOn rest⟩
      | _ => cases harrived

end Crew

/-! ## Turns of a launch -/

namespace Grid

variable {kernel : Kernel σ α} {geometry : Geometry} {grid : Grid σ α}

/-- A turn changes its block, or begins it, or does nothing. -/
theorem crews_turn (scheduling : Scheduling) (kernel : Kernel σ α) (geometry : Geometry)
    (grid : Grid σ α) (place : Nat × Nat) :
    (grid.turn scheduling kernel geometry place).crews = grid.crews ∨
      ∃ crew, (grid.turn scheduling kernel geometry place).crews = grid.crews.set place.1 crew := by
  unfold Grid.turn
  cases grid.crew? place.1 with
  | some crew => exact .inr ⟨_, rfl⟩
  | none =>
    by_cases hmay : grid.mayBegin scheduling place.1 = true
    · simp only [hmay, if_true]
      unfold Grid.begun
      cases kernel.slots geometry.threads with
      | error _ => exact .inl rfl
      | ok slots => exact .inr ⟨_, rfl⟩
    · simp only [hmay]
      exact .inl rfl

theorem length_turn (scheduling : Scheduling) (grid : Grid σ α) (place : Nat × Nat) :
    (grid.turn scheduling kernel geometry place).crews.length = grid.crews.length := by
  rcases crews_turn scheduling kernel geometry grid place with h | ⟨_, h⟩
  · rw [h]
  · rw [h, List.length_set]

/-- A turn leaves the blocks alone whose turn it is not. -/
theorem crew?_turn_of_ne (scheduling : Scheduling) {place : Nat × Nat} {block : Nat}
    (h : place.1 ≠ block) :
    (grid.turn scheduling kernel geometry place).crew? block = grid.crew? block := by
  unfold crew?
  rcases crews_turn scheduling kernel geometry grid place with hs | ⟨_, hs⟩
  · rw [hs]
  · rw [hs, List.getElem?_set_ne h]

/-- The turn of a block that has begun. -/
theorem crew?_turn_of_some (scheduling : Scheduling) {place : Nat × Nat} {crew : Crew σ α Unit}
    (h : grid.crew? place.1 = some crew) :
    (grid.turn scheduling kernel geometry place).crew? place.1 =
      some (crew.turn kernel.callbacks place.2 grid.store).1 := by
  unfold Grid.turn
  rw [h]
  simp only
  rw [crew?_set grid _ (lt_of_crew? h), if_pos rfl]

/-- The turn of a block that has not begun: it may begin. -/
theorem crew?_turn_of_none (scheduling : Scheduling) (kernel : Kernel σ α) (geometry : Geometry)
    {place : Nat × Nat} (h : grid.crew? place.1 = none) :
    (grid.turn scheduling kernel geometry place).crew? place.1 = none ∨
      grid.mayBegin scheduling place.1 = true ∧ ∃ slots, kernel.slots geometry.threads = .ok slots ∧
        (grid.turn scheduling kernel geometry place).crew? place.1 =
          some (Crew.start slots (kernel.lanes geometry place.1)) := by
  unfold Grid.turn
  rw [h]
  simp only
  by_cases hmay : grid.mayBegin scheduling place.1 = true
  · rw [if_pos hmay]
    unfold Grid.begun
    cases hslots : kernel.slots geometry.threads with
    | error _ => exact .inl h
    | ok slots =>
      by_cases hblock : place.1 < grid.crews.length
      · refine .inr ⟨hmay, slots, rfl, ?_⟩
        simp only
        rw [crew?_set grid _ hblock, if_pos rfl]
      · -- there is no such block
        refine .inl ?_
        simp only
        rw [List.set_eq_of_length_le (Nat.le_of_not_lt hblock)]
        exact h
  · rw [if_neg hmay]
    exact .inl h

/-- What a lane of a block that has begun does in a turn. -/
theorem deed?_of_some {place : Nat × Nat} {crew : Crew σ α Unit} (h : grid.crew? place.1 = some crew) :
    grid.deed? place = crew.deed? place.2 := by
  unfold deed?
  rw [h, Option.bind_some]

theorem deed?_of_none {place : Nat × Nat} (h : grid.crew? place.1 = none) :
    grid.deed? place = none := by
  unfold deed?
  rw [h, Option.bind_none]

/-- The fault of a block stays. -/
theorem fault?_turn (scheduling : Scheduling) {block : Nat} {panic : Panic}
    (h : grid.fault? block = some panic) (place : Nat × Nat) :
    (grid.turn scheduling kernel geometry place).fault? block = some panic := by
  unfold fault? at h ⊢
  by_cases he : place.1 = block
  · subst he
    obtain ⟨crew, hcrew, hfault⟩ := Option.bind_eq_some_iff.mp h
    rw [crew?_turn_of_some scheduling hcrew, Option.bind_some]
    exact Crew.turn_fault (Crew.turn_spec ..) hfault
  · rw [crew?_turn_of_ne scheduling he]
    exact h

/-- A block that has ended without a fault stays so. -/
theorem isDone_turn (scheduling : Scheduling) {block : Nat} (h : grid.isDone block = true)
    (place : Nat × Nat) : (grid.turn scheduling kernel geometry place).isDone block = true := by
  unfold isDone at h ⊢
  by_cases he : place.1 = block
  · subst he
    cases hcrew : grid.crew? place.1 with
    | none =>
      rw [hcrew] at h
      cases h
    | some crew =>
      rw [hcrew] at h
      have hover := (Bool.and_eq_true_iff.mp h).1
      rw [crew?_turn_of_some scheduling hcrew, Crew.turn_of_rests (Crew.rests_of_isOver hover _)]
      exact h
  · rw [crew?_turn_of_ne scheduling he]
    exact h

/-! ## What holds of every block -/

/-- What holds of each block that has begun, and of what its lanes have done. -/
def Keeps (P : Nat → Crew σ α Unit → List (Nat × Deed σ α) → Prop) (grid : Grid σ α)
    (log : List ((Nat × Nat) × Deed σ α)) : Prop :=
  ∀ block, match grid.crew? block with
    | none => ofBlock block log = []
    | some crew => P block crew (ofBlock block log)

variable {P : Nat → Crew σ α Unit → List (Nat × Deed σ α) → Prop}

theorem keeps_turn {log : List ((Nat × Nat) × Deed σ α)}
    (hstart : ∀ block slots, kernel.slots geometry.threads = .ok slots →
      P block (Crew.start slots (kernel.lanes geometry block)) [])
    (hturn : ∀ block lane (store : Store α) crew crew' deed log, P block crew log →
      Crew.Turn kernel.callbacks crew lane store crew' deed →
        P block crew' (log ++ deed.toList.map fun deed => (lane, deed)))
    (h : Keeps P grid log) (scheduling : Scheduling) (place : Nat × Nat) :
    Keeps P (grid.turn scheduling kernel geometry place)
      (log ++ (grid.deed? place).toList.map fun deed => (place, deed)) := by
  intro block
  have hold := h block
  rw [ofBlock_append, ofBlock_turn]
  by_cases he : place.1 = block
  · subst he
    rw [if_pos rfl]
    cases hcrew : grid.crew? place.1 with
    | some crew =>
      rw [hcrew] at hold
      rw [crew?_turn_of_some scheduling hcrew, deed?_of_some hcrew]
      exact hturn _ _ grid.store _ _ _ _ hold (Crew.turn_spec ..)
    | none =>
      rw [hcrew] at hold
      rw [deed?_of_none hcrew, show ofBlock place.1 log = [] from hold]
      rcases crew?_turn_of_none scheduling kernel geometry hcrew with
        hnone | ⟨_, slots, hslots, hsome⟩
      · rw [hnone]
        rfl
      · rw [hsome]
        exact hstart place.1 slots hslots
  · rw [crew?_turn_of_ne scheduling he, if_neg he, List.append_nil]
    exact hold

/-- No block has begun at first. -/
theorem crew?_start (geometry : Geometry) (store : Store α) (block : Nat) :
    (start geometry store : Grid σ α).crew? block = none := by
  unfold crew? start
  rw [List.getElem?_replicate]
  split <;> rfl

/-- **What every turn of a block keeps holds of every block of every launch.** -/
theorem keeps_run
    (hstart : ∀ block slots, kernel.slots geometry.threads = .ok slots →
      P block (Crew.start slots (kernel.lanes geometry block)) [])
    (hturn : ∀ block lane (store : Store α) crew crew' deed log, P block crew log →
      Crew.Turn kernel.callbacks crew lane store crew' deed →
        P block crew' (log ++ deed.toList.map fun deed => (lane, deed)))
    (scheduling : Scheduling) (store : Store α) (places : List (Nat × Nat)) :
    Keeps P (run scheduling kernel geometry store places)
      (Grid.log scheduling kernel geometry store places) := by
  have hturns : ∀ (places : List (Nat × Nat)) (grid : Grid σ α)
      (log : List ((Nat × Nat) × Deed σ α)), Keeps P grid log →
        Keeps P (grid.turns scheduling kernel geometry places)
          (log ++ logFrom scheduling kernel geometry grid places) := by
    intro places
    induction places with
    | nil =>
      intro grid log h
      simpa [logFrom, Grid.turns] using h
    | cons place rest ih =>
      intro grid log h
      have hrest := ih _ _ (keeps_turn hstart hturn h scheduling place)
      rw [List.append_assoc] at hrest
      exact hrest
  apply hturns places (start geometry store) []
  intro block
  rw [crew?_start]
  rfl

/-- What the moves of a lane keep holds of every lane of a block. -/
def OfLanes (Q : Nat → Station σ α Unit → List (Deed σ α) → Prop) (crew : Crew σ α Unit)
    (log : List (Nat × Deed σ α)) : Prop :=
  ∀ (lane : Nat) (station : Station σ α Unit), crew.stations[lane]? = some station →
    Q lane station (own lane log)

/-- **What the moves of a lane keep holds of every lane of every launch.** -/
theorem ofLanes_run {Q : Nat → Nat → Station σ α Unit → List (Deed σ α) → Prop}
    (hstart : ∀ block, ∀ lane < geometry.threads,
      Q block lane (.running (kernel.program (geometry.context block lane))) [])
    (hmove : ∀ block lane station deeds more station', Q block lane station deeds →
      Crew.Move kernel.callbacks station more station' → Q block lane station' (deeds ++ more))
    (scheduling : Scheduling) (store : Store α) (places : List (Nat × Nat)) :
    Keeps (fun block => OfLanes (Q block)) (run scheduling kernel geometry store places)
      (Grid.log scheduling kernel geometry store places) := by
  refine keeps_run ?_ ?_ scheduling store places
  · intro block slots _ lane station hs
    obtain ⟨program, hprogram, rfl⟩ := Option.map_eq_some_iff.mp (List.getElem?_map .. ▸ hs)
    obtain ⟨place, hplace, rfl⟩ := Option.map_eq_some_iff.mp (List.getElem?_map .. ▸ hprogram)
    obtain ⟨hlt, rfl⟩ := List.getElem?_eq_some_iff.mp hplace
    rw [List.length_range] at hlt
    rw [List.getElem_range]
    exact hstart block lane hlt
  · intro block lane store crew crew' deed log hall hturn other station' hs'
    obtain ⟨station, hs, hmoves⟩ := hturn.move hs'
    have hown : own other (log ++ deed.toList.map fun deed => (lane, deed)) =
        own other log ++ if lane = other then deed.toList else [] := by
      rw [own_append, own_map_pair]
    rw [hown]
    exact hmove block other station _ _ station' (hall other station hs) hmoves

end Grid

/-! ## The order of the blocks -/

/-- Whether a block comes before another one when blocks begin one at a time. -/
def Scheduling.Before : Scheduling → (other block : Nat) → Prop
  | parallel, _, _ => False
  | sequential, other, block => other < block
  | reversed, other, block => block < other

/-- What comes before an entry of a sorted list lies in front of it. -/
theorem mem_takeWhile_ne {r : Nat → Nat → Prop} (hasymm : ∀ a b, r a b → ¬ r b a) {list : List Nat}
    (hsorted : list.Pairwise r) {a b : Nat} (ha : a ∈ list) (hab : r a b) :
    a ∈ list.takeWhile (· ≠ b) := by
  induction hsorted with
  | nil => cases ha
  | @cons first rest hfirst _ ih =>
    have hne : first ≠ b := by
      rintro rfl
      rcases List.mem_cons.mp ha with rfl | ha
      · exact hasymm _ _ hab hab
      · exact hasymm _ _ hab (hfirst a ha)
    rw [List.takeWhile_cons_of_pos (by simpa using hne)]
    rcases List.mem_cons.mp ha with rfl | ha
    · exact List.mem_cons_self
    · exact List.mem_cons_of_mem _ (ih ha)

namespace Grid

variable {kernel : Kernel σ α} {geometry : Geometry} {grid : Grid σ α}

/-- A block may begin when those before it have ended without a fault. -/
theorem isDone_of_mayBegin {scheduling : Scheduling} {block other : Nat}
    (h : grid.mayBegin scheduling block = true) (hother : other < grid.crews.length)
    (hbefore : scheduling.Before other block) : grid.isDone other = true := by
  cases scheduling with
  | parallel => exact hbefore.elim
  | sequential =>
    exact List.all_eq_true.mp h other (mem_takeWhile_ne (fun _ _ => Nat.lt_asymm)
      List.pairwise_lt_range (List.mem_range.mpr hother) hbefore)
  | reversed =>
    have hsorted : (List.range grid.crews.length).reverse.Pairwise (fun a b => b < a) :=
      List.pairwise_reverse.mpr List.pairwise_lt_range
    exact List.all_eq_true.mp h other (mem_takeWhile_ne (fun _ _ => Nat.lt_asymm) hsorted
      (List.mem_reverse.mpr (List.mem_range.mpr hother)) hbefore)

/-- A launch under way that has begun its blocks in order. -/
structure Orderly (scheduling : Scheduling) (blocks : Nat) (grid : Grid σ α) : Prop where
  length : grid.crews.length = blocks
  done : ∀ block, (grid.crew? block).isSome → ∀ other < blocks, scheduling.Before other block →
    grid.isDone other = true

theorem Orderly.turn {scheduling : Scheduling} {blocks : Nat} (h : Orderly scheduling blocks grid)
    (place : Nat × Nat) : Orderly scheduling blocks (grid.turn scheduling kernel geometry place) := by
  refine ⟨(length_turn ..).trans h.length, fun block hbegun other hother hbefore => ?_⟩
  apply isDone_turn
  by_cases he : place.1 = block
  · subst he
    cases hcrew : grid.crew? place.1 with
    | some crew => exact h.done place.1 (by rw [hcrew]; rfl) other hother hbefore
    | none =>
      rcases crew?_turn_of_none scheduling kernel geometry hcrew with
        hnone | ⟨hmay, _⟩
      · rw [hnone] at hbegun
        cases hbegun
      · exact isDone_of_mayBegin hmay (h.length ▸ hother) hbefore
  · rw [crew?_turn_of_ne scheduling he] at hbegun
    exact h.done block hbegun other hother hbefore

/-! ## Runs -/

/-- **What a turn keeps holds after every turn of a launch.** -/
theorem turns_induct {Q : Grid σ α → Prop} {scheduling : Scheduling}
    (hturn : ∀ grid place, Q grid → Q (grid.turn scheduling kernel geometry place)) (h : Q grid)
    (places : List (Nat × Nat)) : Q (grid.turns scheduling kernel geometry places) := by
  induction places generalizing grid with
  | nil => exact h
  | cons place rest ih => exact ih (hturn grid place h)

/-- **A launch begins its blocks in order.** -/
theorem orderly_run (scheduling : Scheduling) (kernel : Kernel σ α) (geometry : Geometry)
    (store : Store α) (places : List (Nat × Nat)) :
    Orderly scheduling geometry.blocks (run scheduling kernel geometry store places) := by
  refine turns_induct (fun _ place h => h.turn place) ⟨List.length_replicate .., ?_⟩ places
  intro block hbegun
  rw [crew?_start] at hbegun
  cases hbegun

/-- The fault of a block stays while the launch goes on. -/
theorem fault?_append (scheduling : Scheduling) (kernel : Kernel σ α) (geometry : Geometry)
    (store : Store α) {places : List (Nat × Nat)} {block : Nat} {panic : Panic}
    (h : (run scheduling kernel geometry store places).fault? block = some panic)
    (more : List (Nat × Nat)) :
    (run scheduling kernel geometry store (places ++ more)).fault? block = some panic := by
  show (turns scheduling kernel geometry (start geometry store) (places ++ more)).fault? block = _
  rw [turns_append]
  exact turns_induct (Q := fun grid => grid.fault? block = some panic)
    (fun _ place h => fault?_turn scheduling h place) h more

end Grid

end BlockMachine
