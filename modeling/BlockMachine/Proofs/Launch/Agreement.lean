import BlockMachine.Proofs.Launch.InOrder
import BlockMachine.Proofs.Launch.Independent

/-!
# Launches whose order does not matter

* `Grid.Agrees` — what all runs of a launch have in common, whatever turns its lanes take.
* `Grid.agrees_of_plan` — so it is in a launch with a plan in which writes are apart.
* `launches_agree` — an independent launch leaves the same output in every order of its blocks and their lanes,
  and in each of them every lane of the grid executes its program once.
-/

set_option autoImplicit false

namespace BlockMachine

open History

variable {σ α : Type}

namespace Grid

/-- What all runs of a launch have in common: `output` is what they leave, and `course` is what each lane does. -/
structure Agrees (scheduling : Scheduling) (kernel : Kernel σ α) (geometry : Geometry) (store : Store α)
    (output : Array α) (course : Nat → Nat → List (Deed σ α)) : Prop where
  /-- Each can be brought to its end, -/
  ends : ∀ places, ∃ more, (run scheduling kernel geometry store (places ++ more)).isOver = true
  /-- and then it answers without an error, -/
  answers : ∀ places, (run scheduling kernel geometry store places).isOver = true →
    ∀ answer, (run scheduling kernel geometry store places).Answers answer ↔ answer = .ok ()
  /-- leaves the output, -/
  output : ∀ places, (run scheduling kernel geometry store places).isOver = true →
    (run scheduling kernel geometry store places).store.output = output
  /-- and every lane of the grid has come to its normal end on its course. -/
  lanes : ∀ places, (run scheduling kernel geometry store places).isOver = true →
    ∀ block < geometry.blocks, ∀ lane < geometry.threads,
      (run scheduling kernel geometry store places).Finished block lane ∧
        own lane (ofBlock block (Grid.log scheduling kernel geometry store places)) = course block lane
  /-- No other lane does anything. -/
  only : ∀ places, ∀ entry ∈ Grid.log scheduling kernel geometry store places,
    entry.1.1 < geometry.blocks ∧ entry.1.2 < geometry.threads
  /-- The slots of a block are created for it, and hold what its own lanes store there. -/
  slots : ∀ places block crew, (run scheduling kernel geometry store places).crew? block = some crew →
    ∃ slots, kernel.slots geometry.threads = .ok slots ∧
      crew.slots = ((⟨slots, store.journal.calls⟩ : Sight σ).after
        (Deed.requests (ofBlock block (Grid.log scheduling kernel geometry store places)))).slots

section Plan

variable {kernel : Kernel σ α} {geometry : Geometry} {calls : Array Nat} {plan : Plan kernel geometry calls}
  {store : Store α} {scheduling : Scheduling} {places : List (Nat × Nat)}

/-- The lanes of a launch that is over have come to their normal ends. -/
theorem finished_of_plan (plan : Plan kernel geometry calls)
    (hends : ∀ block < geometry.blocks, Block.EndWell geometry.threads (plan.stops block))
    (hcalls : store.journal.calls = calls)
    (hover : (run scheduling kernel geometry store places).isOver = true) {block lane : Nat}
    (hblock : block < geometry.blocks) (hlane : lane < geometry.threads) :
    (run scheduling kernel geometry store places).Finished block lane := by
  have hfollows := follows_run plan hcalls scheduling places
  obtain ⟨crew, hcrew, hcrewOver⟩ :=
    exists_crew_of_isOver hover (hfollows.fault?_eq_none hends) (hfollows.length ▸ hblock)
  obtain ⟨_, hblockFollows⟩ := hfollows.of_crew? hcrew
  obtain ⟨result, hs, _⟩ := (Crew.Follows.of_isOver hblockFollows (hends block hblock) hcrewOver).2.1 lane hlane
  exact ⟨crew, hcrew, hs⟩

/-- **All runs of a launch with a plan in which writes are apart agree** with one that has come to its end. -/
theorem agrees_of_plan (hzero : kernel.callbacks.element.size = 0 → ∀ a b : α, a = b)
    (hends : ∀ block < geometry.blocks, Block.EndWell geometry.threads (plan.stops block))
    (hapart : WritesApart plan) (hcalls : store.journal.calls = calls)
    (hover : (run scheduling kernel geometry store places).isOver = true) {store' : Store α}
    (hcalls' : store'.journal.calls = calls) (houtput : store'.output = store.output)
    (scheduling' : Scheduling) :
    Agrees scheduling' kernel geometry store' (run scheduling kernel geometry store places).store.output
      fun block lane => own lane (ofBlock block (Grid.log scheduling kernel geometry store places)) := by
  have hfollows := follows_run plan hcalls' scheduling'
  refine ⟨exists_run_append plan hends hcalls' scheduling', fun places' _ answer => ⟨?_, ?_⟩,
    fun places' hover' => output_eq hzero hapart hends hcalls' hcalls houtput hover' hover,
    fun places' hover' block hblock lane hlane => ⟨finished_of_plan plan hends hcalls' hover' hblock hlane, ?_⟩,
    fun places' => (hfollows places').place_lt, fun places' block crew hcrew => slots_run hcrew _⟩
  · intro hanswers
    cases hanswers with
    | ok _ => rfl
    | fault block panic hfault =>
      rw [(hfollows places').fault?_eq_none hends block] at hfault
      cases hfault
  · rintro rfl
    exact .ok ((hfollows places').fault?_eq_none hends)
  · rw [((hfollows places').of_isOver hends hover').1 block hblock lane hlane,
      ((follows_run plan hcalls scheduling places).of_isOver hends hover).1 block hblock lane hlane]

/-- A launch that keeps to a plan which ends well comes to its result without an error. -/
theorem Concludes.of_plan (plan : Plan kernel geometry calls)
    (hends : ∀ block < geometry.blocks, Block.EndWell geometry.threads (plan.stops block))
    (hcalls : store.journal.calls = calls) {result : Except Failure Unit × Store α}
    (h : Concludes kernel geometry (run scheduling kernel geometry store places) result) :
    (run scheduling kernel geometry store places).isOver = true ∧
      result = (.ok (), (run scheduling kernel geometry store places).store) := by
  have hfollows := follows_run plan hcalls scheduling places
  cases h with
  | ok hover _ => exact ⟨hover, rfl⟩
  | @fault block _ _ hfault =>
    rw [hfollows.fault?_eq_none hends block] at hfault
    cases hfault
  | @deadlock block crew hcrew hrests hlive =>
    -- a block that is not over can go on
    obtain ⟨hblock, hblockFollows⟩ := hfollows.of_crew? hcrew
    obtain ⟨lane, _, hdeed⟩ := Crew.Follows.exists_deed hblockFollows (hends block hblock) hlive
    have hrest := hrests lane
    unfold Crew.Rests at hrest
    unfold Crew.deed? at hdeed
    cases hs : crew.stations[lane]? with
    | none =>
      rw [hs] at hdeed
      cases hdeed
    | some station =>
      rw [hs] at hdeed hrest
      cases station with
      | running _ => exact hrest.elim
      | _ => cases hdeed
  | panic hslots =>
    rw [plan.slots_eq] at hslots
    cases hslots

end Plan

end Grid

/-! ## Launches -/

section Launch

variable {config : LaunchConfig} {kernel : Kernel σ α} {blocks threads : Nat} {store : Store α}

/-- What a launch leaves in an order of its blocks that its scheduling admits is what some run of it leaves. -/
theorem Grid.exists_run_launchInOrder (hvalid : config.validate = .ok ()) (hthreads : 0 < threads)
    (hmax : threads ≤ maxThreadsPerBlock)
    {plan : Plan kernel ⟨blocks, threads, config.capability.supportsWideCopy⟩ store.journal.calls}
    (hends : ∀ block < blocks, Block.EndWell threads (plan.stops block)) {order : Nat → List Nat}
    (horder : (order blocks).Perm (List.range blocks))
    (hadmits : config.scheduling = .parallel ∨ config.scheduling.order blocks = order blocks) :
    let begun := { store with
      journal := store.journal.note (.launch blocks threads config.scheduling config.capability) }
    ∃ places left, (Grid.run config.scheduling kernel ⟨blocks, threads, config.capability.supportsWideCopy⟩ begun
        places).isOver = true ∧
      launchInOrder order config kernel blocks threads store = (.ok (), left) ∧
      left.output = (Grid.run config.scheduling kernel ⟨blocks, threads, config.capability.supportsWideCopy⟩ begun
        places).store.output := by
  intro begun
  rcases Nat.eq_zero_or_pos blocks with rfl | hblocks
  · -- there is nothing to run
    refine ⟨[], store, rfl, ?_, rfl⟩
    rw [launchInOrder_def, hvalid]
    simp only
    rw [if_neg (by omega), if_pos trivial]
  · obtain ⟨places, hconcludes⟩ :=
      Grid.exists_run_launch hvalid hthreads hmax hblocks horder hadmits kernel store
    have hcalls : begun.journal.calls = store.journal.calls := rfl
    obtain ⟨hover, hresult⟩ := Grid.Concludes.of_plan plan hends hcalls hconcludes
    exact ⟨places, _, hover, hresult, rfl⟩

/-- **The order of an independent launch does not matter**: with any number of blocks and any width that a
launch admits, it answers without an error and leaves the same output whatever policy its blocks are scheduled
by, in whatever order they run in parallel, and whatever turns their lanes take.  Every lane executes its
program, with its own indices and the dimensions of the grid, once. -/
theorem launches_agree (hvalid : config.validate = .ok ()) (hthreads : 0 < threads)
    (hmax : threads ≤ maxThreadsPerBlock) (hzero : kernel.callbacks.element.size = 0 → ∀ a b : α, a = b)
    (h : Grid.Independent kernel ⟨blocks, threads, config.capability.supportsWideCopy⟩ store) :
    ∃ (output : Array α) (course : Nat → Nat → List (Deed σ α)),
      (∀ scheduling, ∃ left, launch { config with scheduling := scheduling } kernel blocks threads store =
        (.ok (), left) ∧ left.output = output) ∧
      (∀ order : Nat → List Nat, (order blocks).Perm (List.range blocks) → ∃ left,
        launchInOrder order { config with scheduling := .parallel } kernel blocks threads store =
          (.ok (), left) ∧ left.output = output) ∧
      (∀ scheduling, Grid.Agrees scheduling kernel ⟨blocks, threads, config.capability.supportsWideCopy⟩
        { store with
          journal := store.journal.note (.launch blocks threads scheduling config.capability) }
        output course) ∧
      ∀ block < blocks, ∀ lane < threads,
        (kernel.program ⟨lane, block, threads, blocks, config.capability.supportsWideCopy⟩).Executes
          kernel.callbacks (course block lane) := by
  obtain ⟨plan, hends⟩ := h.exists_plan hthreads
  obtain ⟨places, hover⟩ := Grid.exists_run_append plan hends rfl .parallel []
  have hagrees := fun scheduling =>
    let begun : Store α := { store with
      journal := store.journal.note (.launch blocks threads scheduling config.capability) }
    Grid.agrees_of_plan hzero hends (h.writesApart plan hends) rfl hover
      (show begun.journal.calls = store.journal.calls from rfl) rfl scheduling
  refine ⟨_, _, fun scheduling => ?_, fun order horder => ?_, hagrees, fun block hblock lane hlane =>
    Grid.executes_of_finished (Grid.finished_of_plan plan hends rfl hover hblock hlane)⟩
  · obtain ⟨places', left, hover', hlaunch, hleft⟩ := Grid.exists_run_launchInOrder
      (show LaunchConfig.validate { config with scheduling := scheduling } = .ok () from hvalid) hthreads hmax hends
      (scheduling.perm_order blocks) (.inr rfl)
    exact ⟨left, hlaunch, hleft.trans ((hagrees scheduling).output places' hover')⟩
  · obtain ⟨places', left, hover', hlaunch, hleft⟩ := Grid.exists_run_launchInOrder
      (show LaunchConfig.validate { config with scheduling := .parallel } = .ok () from hvalid) hthreads hmax
      hends horder (.inl rfl)
    exact ⟨left, hlaunch, hleft.trans ((hagrees .parallel).output places' hover')⟩

end Launch

/-! ## Launches whose order matters -/

/-- The lanes of a block write the same slot. -/
def rivals : Kernel Nat Nat where
  slots _ := .ok #[]
  program context := .ask (.write 0 context.lane) fun _ => .done ()
  callbacks := ⟨fun _ _ => .ok 0, fun _ _ => .ok 0, .cloned 1⟩

/-- One lane stores into a slot what the other one writes, and there is no barrier between them. -/
def hasty : Kernel Nat Nat where
  slots _ := .ok #[0]
  program context :=
    if context.lane = 0 then .ask (.store 0 1) fun _ => .done ()
    else .ask (.load 0) fun value => .ask (.write 0 value) fun _ => .done ()
  callbacks := ⟨fun _ _ => .ok 0, fun _ _ => .ok 0, .cloned 1⟩

/-- Each block writes how often the caller has been asked before. -/
def ticket : Kernel Nat Nat where
  slots _ := .ok #[]
  program context := .ask (.fetch 0) fun number => .ask (.write context.block number) fun _ => .done ()
  callbacks := ⟨fun _ earlier => .ok earlier, fun _ _ => .ok 0, .cloned 1⟩

/-- One lane ends while the other one waits for it. -/
def leaver : Kernel Nat Nat where
  slots _ := .ok #[]
  program context := if context.lane = 0 then .done () else .barrier (.done ())
  callbacks := ⟨fun _ _ => .ok 0, fun _ _ => .ok 0, .cloned 1⟩

/-- Without panics, and with blocks that write different slots, a launch may be refused for its width, leave
what hangs on the order of the lanes or of the blocks, or come to a deadlock. -/
theorem launches_disagree :
    let config : LaunchConfig := { threadsPerBlock := 2, multiprocessors := 1 }
    let ends (kernel : Kernel Nat Nat) (places : List (Nat × Nat)) (output : Array Nat) :=
      (Grid.run .parallel kernel ⟨1, 2, true⟩ ⟨#[0], .start 0⟩ places).isOver = true ∧
        (Grid.run .parallel kernel ⟨1, 2, true⟩ ⟨#[0], .start 0⟩ places).fault? 0 = none ∧
        (Grid.run .parallel kernel ⟨1, 2, true⟩ ⟨#[0], .start 0⟩ places).store.output = output
    (launch config rivals 1 1025 ⟨#[0], .start 0⟩).1 =
        .error (.error (.invalidConfig (.launchWidth 1025))) ∧
      (ends rivals [(0, 0), (0, 0), (0, 0), (0, 1), (0, 1)] #[1] ∧
        ends rivals [(0, 0), (0, 1), (0, 1), (0, 0), (0, 0)] #[0]) ∧
      (ends hasty [(0, 0), (0, 0), (0, 0), (0, 1), (0, 1), (0, 1)] #[1] ∧
        ends hasty [(0, 0), (0, 1), (0, 1), (0, 1), (0, 0), (0, 0)] #[0]) ∧
      ((launch { config with scheduling := .sequential } ticket 2 1 ⟨#[9, 9], .start 1⟩).2.output = #[0, 1] ∧
        (launch { config with scheduling := .reversed } ticket 2 1 ⟨#[9, 9], .start 1⟩).2.output = #[1, 0]) ∧
      (launch config leaver 1 2 ⟨#[0], .start 0⟩).1 = .error .deadlock := by
  decide

/-! ## Lanes that exchange their tags -/

/-- The lanes put their tags into the slots of their block, and behind a barrier each writes the tag of the lane
at the other end. -/
def exchanger : Kernel Nat Nat where
  slots threads := .ok (Array.replicate threads 0)
  program context :=
    .ask (.store context.lane (10 * context.block + context.lane)) fun _ =>
      .barrier (.ask (.load (context.blockSize - 1 - context.lane)) fun tag =>
        .ask (.write (context.blockSize * context.block + context.lane) tag) fun _ => .done ())
  callbacks := ⟨fun _ _ => .ok 0, fun _ _ => .ok 0, .cloned 1⟩

/-- What two lanes do on the two sides of the barrier. -/
def exchangerStages (block : Nat) : List (Stage Nat Nat) :=
  [fun lane => [.store lane (10 * block + lane)],
    fun lane => [.load (1 - lane), .write (2 * block + lane) (10 * block + (1 - lane))]]

theorem runs_exchanger (block : Nat) :
    Block.Runs exchanger.callbacks 2 (fun lane => exchanger.program ⟨lane, block, 2, 2, true⟩) ⟨#[0, 0], #[]⟩
      (exchangerStages block) fun _ => .finished () := by
  have hbefore : Stage.Apart exchanger.callbacks 2 fun lane => [.store lane (10 * block + lane)] := by
    intro lane _ other _ hne request hr request' hr' hclash
    rw [List.mem_singleton] at hr hr'
    subst hr hr'
    simp [Request.Clashes, Request.stored?, Request.slot?, Request.item?] at hclash
    omega
  have hbehind : Stage.Apart exchanger.callbacks 2 fun lane =>
      [.load (1 - lane), .write (2 * block + lane) (10 * block + (1 - lane))] := by
    refine Stage.apart_of_quiet fun lane _ request hr => ?_
    rcases List.mem_pair.mp hr with rfl | rfl <;> exact ⟨rfl, rfl⟩
  let next : Nat → Lane Nat Nat Unit := fun lane => .ask (.load (1 - lane)) fun tag =>
    .ask (.write (2 * block + lane) tag) fun _ => .done ()
  refine @Block.Runs.pass _ _ _ _ _ _ next _ _ _ _ (fun lane hlane => ?_) hbefore
    (.stop (fun lane hlane => ?_) hbehind ⟨0, by decide, rfl⟩)
  · obtain rfl | rfl : lane = 0 ∨ lane = 1 := by omega
    all_goals rfl
  · obtain rfl | rfl : lane = 0 ∨ lane = 1 := by omega
    all_goals rfl

theorem independent_exchanger (output : Array Nat) :
    Grid.Independent exchanger ⟨2, 2, true⟩ ⟨output, .start 0⟩ := by
  have hwrite : ∀ block lane, ∀ stage ∈ exchangerStages block, ∀ request ∈ stage lane, ∀ slot place,
      request.piece? exchanger.callbacks.element slot place ≠ none → slot = 2 * block + lane := by
    intro block lane stage hstage request hr slot place hpiece
    rcases List.mem_pair.mp hstage with rfl | rfl
    · rw [List.mem_singleton.mp hr] at hpiece
      exact absurd rfl hpiece
    · rcases List.mem_pair.mp hr with rfl | rfl
      · exact absurd rfl hpiece
      · by_contra hne
        exact hpiece (if_neg (Ne.symm hne))
  refine Grid.independent_of_plan
    ⟨#[0, 0], exchangerStages, fun _ _ => .finished (), rfl, fun block _ => runs_exchanger block, ?_⟩
    (fun _ _ _ _ => ⟨(), rfl⟩) ⟨?_, ?_⟩
  · rintro _ _ _ _ _ index ⟨_, stage, hstage, request, hr, hitem⟩
    obtain ⟨lane, _, hr⟩ := Stage.mem_all.mp hr
    rcases List.mem_pair.mp hstage with rfl | rfl
    · rw [List.mem_singleton.mp hr] at hitem
      cases hitem
    · rcases List.mem_pair.mp hr with rfl | rfl <;> cases hitem
  · rintro block _ barriers lane _ other _ hne request hr request' hr' ⟨slot, place, _, hpiece, hpiece'⟩
    rw [Deed.segment_course] at hr hr'
    change request ∈ ((exchangerStages block)[barriers]?.map _).getD [] at hr
    change request' ∈ ((exchangerStages block)[barriers]?.map _).getD [] at hr'
    cases hget : (exchangerStages block)[barriers]? with
    | none =>
      rw [hget] at hr
      cases hr
    | some stage =>
      rw [hget] at hr hr'
      have hstage := List.mem_of_getElem? hget
      have hslot := hwrite block lane stage hstage request hr slot place hpiece
      have hslot' := hwrite block other stage hstage request' hr' slot place hpiece'
      omega
  · rintro block hblock other hother hne request hr request' hr' ⟨slot, place, _, hpiece, hpiece'⟩
    obtain ⟨stage, hstage, hr⟩ := List.mem_flatMap.mp hr
    obtain ⟨stage', hstage', hr'⟩ := List.mem_flatMap.mp hr'
    obtain ⟨lane, hlane, hr⟩ := Stage.mem_all.mp hr
    obtain ⟨lane', hlane', hr'⟩ := Stage.mem_all.mp hr'
    have hslot := hwrite block lane stage hstage request hr slot place hpiece
    have hslot' := hwrite other lane' stage' hstage' request' hr' slot place hpiece'
    change lane < 2 at hlane
    change lane' < 2 at hlane'
    omega

theorem launches_agree_exchanger :
    let config : LaunchConfig := { threadsPerBlock := 2, multiprocessors := 1 }
    ∀ scheduling, (launch { config with scheduling := scheduling } exchanger 2 2
        ⟨#[9, 9, 9, 9], .start 0⟩).1 = .ok () ∧
      (launch { config with scheduling := scheduling } exchanger 2 2 ⟨#[9, 9, 9, 9], .start 0⟩).2.output =
        #[1, 0, 11, 10] ∧
      ∀ places, let store : Store Nat := ⟨#[9, 9, 9, 9],
          (Journal.start 0).note (.launch 2 2 scheduling config.capability)⟩
        (Grid.run scheduling exchanger ⟨2, 2, true⟩ store places).isOver = true →
          (Grid.run scheduling exchanger ⟨2, 2, true⟩ store places).store.output = #[1, 0, 11, 10] := by
  intro config scheduling
  obtain ⟨output, course, hlaunch, _, hruns, _⟩ := @launches_agree Nat Nat config exchanger 2 2 _
    (by decide) (by decide) (by decide) (fun h => absurd h (by decide)) (independent_exchanger #[9, 9, 9, 9])
  have houtput : output = #[1, 0, 11, 10] := by
    obtain ⟨left, hleft, rfl⟩ := hlaunch .sequential
    have hsequential : (launch { config with scheduling := .sequential } exchanger 2 2
      ⟨#[9, 9, 9, 9], .start 0⟩).2.output = #[1, 0, 11, 10] := by decide
    rwa [hleft] at hsequential
  obtain ⟨left, hleft, hsame⟩ := hlaunch scheduling
  refine ⟨congrArg Prod.fst hleft, ?_, fun places hover => ?_⟩
  · rw [hleft]
    exact hsame.trans houtput
  · exact ((hruns scheduling).output places hover).trans houtput

end BlockMachine
