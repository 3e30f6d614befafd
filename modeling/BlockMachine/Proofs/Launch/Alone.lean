import BlockMachine.Proofs.Interleaving.Peaceful
import BlockMachine.Proofs.Launch.Answers

/-!
# Blocks and lanes by themselves

What can be said of a block or a lane of a launch without a look at the others.

* `Lane.Executes` — a program from its beginning to its end, and `Grid.executes_of_finished` says that a lane
  that has come to its normal end has executed its program once.
* `Grid.slots_run` — the slots of a block are created for it, and hold what its own lanes store there.
* `Grid.run_alone` — the turns of a block that begins while the others rest.
* `Block.Runs.all_eq` — the run of a block is the only one.
-/

set_option autoImplicit false

namespace BlockMachine

open History

variable {σ α β : Type}

/-! ## Lanes -/

/-- What is done in the execution of a program from its beginning to its normal end. -/
inductive Lane.Executes (callbacks : Callbacks σ α) : Lane σ α β → List (Deed σ α) → Prop
  | done (result : β) : Executes callbacks (.done result) [.ends]
  | barrier {next : Lane σ α β} {deeds : List (Deed σ α)} (h : Executes callbacks next deeds) :
    Executes callbacks (.barrier next) (.arrives :: deeds)
  | ask {request : Request σ α} {next : request.Answer → Lane σ α β} {answer : request.Answer}
    {deeds : List (Deed σ α)} (hanswer : ∃ sight, request.answer callbacks sight = .ok answer)
    (h : Executes callbacks (next answer) deeds) :
    Executes callbacks (.ask request next) (.asks request :: deeds)

namespace Grid

/-- What a lane is still to do on the way to its normal end. -/
def Remains (callbacks : Callbacks σ α) (station : Station σ α Unit) (rest : List (Deed σ α)) : Prop :=
  match station with
  | .running program => program.Executes callbacks rest
  | .arrived next => next.Executes callbacks rest
  | .finished _ => rest = []
  | .unwound _ => False

/-- A move of a lane is a step of its execution. -/
theorem Remains.move {callbacks : Callbacks σ α} {station station' : Station σ α Unit}
    {more rest : List (Deed σ α)} (h : Remains callbacks station' rest)
    (hmove : Crew.Move callbacks station more station') : Remains callbacks station (more ++ rest) := by
  cases hmove with
  | stays _ => exact h
  | finishes result =>
    obtain rfl : rest = [] := h
    exact .done result
  | asks _ hanswer => exact .ask hanswer h
  | arrives _ => exact .barrier h
  | goesThrough _ => exact .barrier h
  | goesOn _ => exact h
  | faults _ => exact h.elim
  | panics _ _ => exact h.elim
  | turnedAway _ => exact h.elim
  | released _ => exact h.elim

variable {scheduling : Scheduling} {kernel : Kernel σ α} {geometry : Geometry} {store : Store α}
  {places : List (Nat × Nat)} {block : Nat}

/-- **A lane that has come to its normal end has executed its program**, from the beginning to the end. -/
theorem executes_of_finished {lane : Nat}
    (h : (run scheduling kernel geometry store places).Finished block lane) :
    (kernel.program (geometry.context block lane)).Executes kernel.callbacks
      (own lane (ofBlock block (Grid.log scheduling kernel geometry store places))) := by
  obtain ⟨crew, hcrew, hs⟩ := h
  have hkeeps := @ofLanes_run σ α kernel geometry
    (fun block lane station deeds => ∀ rest, Remains kernel.callbacks station rest →
      (kernel.program (geometry.context block lane)).Executes kernel.callbacks (deeds ++ rest))
    (fun _ _ _ _ h => h)
    (fun _ _ _ _ _ _ h hmove rest hrest => by
      rw [List.append_assoc]
      exact h _ (hrest.move hmove)) scheduling store places block
  rw [hcrew] at hkeeps
  have hall := hkeeps lane _ hs [] rfl
  rwa [List.append_nil] at hall

/-! ## Slots -/

/-- **The slots of a block are created for it**, and hold what its own lanes store there. -/
theorem slots_run {crew : Crew σ α Unit}
    (hcrew : (run scheduling kernel geometry store places).crew? block = some crew) (calls : Array Nat) :
    ∃ slots, kernel.slots geometry.threads = .ok slots ∧ crew.slots = ((⟨slots, calls⟩ : Sight σ).after
      (Deed.requests (ofBlock block (Grid.log scheduling kernel geometry store places)))).slots := by
  have hkeeps := @keeps_run σ α kernel geometry
    (fun _ crew log => ∃ slots, kernel.slots geometry.threads = .ok slots ∧
      crew.slots = ((⟨slots, calls⟩ : Sight σ).after (Deed.requests log)).slots)
    (fun _ slots hslots => ⟨slots, hslots, rfl⟩) ?_ scheduling store places block
  · rwa [hcrew] at hkeeps
  · rintro block lane store crew crew' deed log ⟨slots, hslots, hcrew⟩ hturn
    refine ⟨slots, hslots, ?_⟩
    have hrequests : Deed.requests (log ++ deed.toList.map fun deed => (lane, deed)) =
        Deed.requests log ++ Deed.requests (deed.toList.map fun deed => (lane, deed)) :=
      List.filterMap_append
    rw [hrequests, Sight.after_append]
    cases hturn with
    | @asks request _ _ _ _ => exact Request.see_slots_congr request hcrew
    | @panics request _ _ _ _ => exact Request.see_slots_congr request hcrew
    | _ => exact hcrew

/-! ## A block that runs while the others rest -/

theorem logFrom_append (scheduling : Scheduling) (kernel : Kernel σ α) (geometry : Geometry) (grid : Grid σ α)
    (early late : List (Nat × Nat)) :
    logFrom scheduling kernel geometry grid (early ++ late) =
      logFrom scheduling kernel geometry grid early ++
        logFrom scheduling kernel geometry (grid.turns scheduling kernel geometry early) late := by
  induction early generalizing grid with
  | nil => rfl
  | cons place rest ih =>
    rw [List.cons_append, logFrom, logFrom, List.append_assoc, ih]
    rfl

theorem log_append (scheduling : Scheduling) (kernel : Kernel σ α) (geometry : Geometry) (store : Store α)
    (early late : List (Nat × Nat)) :
    Grid.log scheduling kernel geometry store (early ++ late) =
      Grid.log scheduling kernel geometry store early ++
        logFrom scheduling kernel geometry (run scheduling kernel geometry store early) late :=
  logFrom_append scheduling kernel geometry _ early late

/-- What the lanes of one block do in their turns. -/
theorem ofBlock_logFrom {grid : Grid σ α} {crew : Crew σ α Unit} (hcrew : grid.crew? block = some crew)
    (lanes : List Nat) (other : Nat) :
    ofBlock other (logFrom scheduling kernel geometry grid (lanes.map fun lane => (block, lane))) =
      if block = other then crew.log kernel.callbacks grid.store lanes else [] := by
  induction lanes generalizing grid crew with
  | nil => exact (ite_self _).symm
  | cons lane rest ih =>
    have hnext := @crew?_turn_of_some σ α kernel geometry grid scheduling (block, lane) crew hcrew
    have hstore : (grid.turn scheduling kernel geometry (block, lane)).store =
        (crew.turn kernel.callbacks lane grid.store).2 := by
      unfold Grid.turn
      rw [hcrew]
    rw [List.map_cons, logFrom, ofBlock_append, ofBlock_turn, deed?_of_some hcrew, ih hnext, hstore]
    by_cases h : block = other
    · rw [if_pos h, if_pos h, if_pos h]
      rfl
    · rw [if_neg h, if_neg h, if_neg h]
      rfl

/-- The turns of a block that begins behind some others, and whose lanes then have the launch to
themselves. -/
def alone (places : List (Nat × Nat)) (block : Nat) (lanes : List Nat) : List (Nat × Nat) :=
  places ++ (block, 0) :: lanes.map fun lane => (block, lane)

/-- **A block that begins while the others rest** does what its lanes do by themselves. -/
theorem run_alone {slots : Array σ} (hslots : kernel.slots geometry.threads = .ok slots)
    (hnone : (run .parallel kernel geometry store places).crew? block = none) (hblock : block < geometry.blocks)
    (lanes : List Nat) :
    let before := run .parallel kernel geometry store places
    let crew : Crew σ α Unit := Crew.start slots (kernel.lanes geometry block)
    let after := run .parallel kernel geometry store (alone places block lanes)
    after.store = (crew.run kernel.callbacks before.store lanes).2 ∧
      (∀ other, after.crew? other = if block = other then
        some (crew.run kernel.callbacks before.store lanes).1 else before.crew? other) ∧
      ∀ other, ofBlock other (Grid.log .parallel kernel geometry store (alone places block lanes)) =
        if block = other then crew.log kernel.callbacks before.store lanes
        else ofBlock other (Grid.log .parallel kernel geometry store places) := by
  intro before crew after
  have hlength : block < before.crews.length := by
    rw [(orderly_run .parallel kernel geometry store places).length]
    exact hblock
  have hbegun : before.turn .parallel kernel geometry (block, 0) =
      ⟨before.crews.set block (some crew), before.store⟩ := by
    unfold Grid.turn
    rw [hnone]
    show (if before.mayBegin .parallel block = true then before.begun kernel geometry block else before) = _
    rw [if_pos (by rfl), begun, hslots]
  have hcrew := crew?_set before before.store hlength crew
  have hself := hcrew block
  rw [if_pos rfl] at hself
  have hafter : after = ⟨before.crews.set block (some (crew.run kernel.callbacks before.store lanes).1),
      (crew.run kernel.callbacks before.store lanes).2⟩ := by
    show turns .parallel kernel geometry (start geometry store) (alone places block lanes) = _
    rw [alone, turns_append]
    show turns .parallel kernel geometry (before.turn .parallel kernel geometry (block, 0)) _ = _
    rw [hbegun, turns_of_block .parallel hself, List.set_set]
  have hempty : ofBlock block (Grid.log .parallel kernel geometry store places) = [] := by
    have hkeeps := abreast_run .parallel kernel geometry store places block
    rw [hnone] at hkeeps
    exact hkeeps
  refine ⟨by rw [hafter], fun other => ?_, fun other => ?_⟩
  · rw [hafter]
    exact crew?_set before _ hlength _ other
  · have hlog : Grid.log .parallel kernel geometry store (alone places block lanes) =
        Grid.log .parallel kernel geometry store places ++
          logFrom .parallel kernel geometry ⟨before.crews.set block (some crew), before.store⟩
            (lanes.map fun lane => (block, lane)) := by
      rw [alone, log_append]
      refine congrArg (Grid.log .parallel kernel geometry store places ++ ·) ?_
      rw [← hbegun, logFrom, show (before.deed? (block, 0)) = none from deed?_of_none hnone]
      rfl
    rw [hlog, ofBlock_append, ofBlock_logFrom hself]
    by_cases h : block = other
    · rw [if_pos h, if_pos h, ← h, hempty]
      rfl
    · rw [if_neg h, if_neg h, List.append_nil]

end Grid

/-! ## The run of a block -/

/-- An item for which nobody asks has been asked for as often as before. -/
theorem Store.getElem?_calls_after (element : Element α) (store : Store α) {requests : List (Request σ α)}
    {index : Nat} (h : ∀ request ∈ requests, request.item? ≠ some index) :
    (store.after element requests).journal.calls[index]? = store.journal.calls[index]? := by
  have hnone : requests.countP (fun request => request.item? == some index) = 0 :=
    List.countP_eq_zero.mpr fun request hr hitem => h request hr (by simpa using hitem)
  rw [Store.calls_after element (#[] : Array σ), Sight.getElem?_calls_after, hnone]
  simp

/-- **The run of a block is the only one**: its lanes always make the same requests. -/
theorem Block.Runs.all_eq {callbacks : Callbacks σ α} {lanes : Nat} {programs programs' : Nat → Lane σ α β}
    {sight : Sight σ} {stages stages' : List (Stage σ α)} {stops stops' : Nat → Stop σ α β}
    (h : Block.Runs callbacks lanes programs sight stages stops)
    (h' : Block.Runs callbacks lanes programs' sight stages' stops')
    (hsame : ∀ lane < lanes, programs lane = programs' lane) :
    (stages.map fun stage => stage.all lanes) = stages'.map fun stage => stage.all lanes := by
  -- in a stage all lanes do the same, and so they do in what follows it
  have hstage : ∀ {programs programs' : Nat → Lane σ α β} {sight : Sight σ} {stage stage' : Stage σ α}
      {stops stops' : Nat → Stop σ α β}, (∀ lane < lanes, programs lane = programs' lane) →
      (∀ lane < lanes, (programs lane).segment callbacks sight = (stage lane, stops lane)) →
      (∀ lane < lanes, (programs' lane).segment callbacks sight = (stage' lane, stops' lane)) →
      stage.all lanes = stage'.all lanes ∧ ∀ lane < lanes, stops lane = stops' lane := by
    intro programs programs' sight stage stage' stops stops' hsame hsegment hsegment'
    have hboth : ∀ lane < lanes, (stage lane, stops lane) = (stage' lane, stops' lane) := by
      intro lane hlane
      rw [← hsegment lane hlane, ← hsegment' lane hlane, hsame lane hlane]
    exact ⟨List.flatMap_congr fun lane hlane => congrArg Prod.fst (hboth lane (List.mem_range.mp hlane)),
      fun lane hlane => congrArg Prod.snd (hboth lane hlane)⟩
  induction h generalizing programs' stages' with
  | stop segment _ halts =>
    obtain ⟨lane, hlane, hnone⟩ := halts
    cases h' with
    | stop segment' _ _ =>
      rw [List.map_singleton, List.map_singleton, (hstage hsame segment segment').1]
    | pass segment' _ _ =>
      rw [(hstage hsame segment segment').2 lane hlane] at hnone
      cases hnone
  | pass segment _ _ ih =>
    cases h' with
    | stop segment' _ halts =>
      obtain ⟨lane, hlane, hnone⟩ := halts
      rw [← (hstage hsame segment segment').2 lane hlane] at hnone
      cases hnone
    | pass segment' _ later =>
      obtain ⟨hall, hstops⟩ := hstage hsame segment segment'
      rw [List.map_cons, List.map_cons, hall]
      rw [← hall] at later
      exact congrArg _ (ih later fun lane hlane => Stop.waiting.inj (hstops lane hlane))

end BlockMachine
