import BlockMachine.Proofs.Decomposition.Partition
import BlockMachine.Proofs.Launch.Alarms
import BlockMachine.Proofs.Reduction.Launch

/-!
# Reductions whose code refuses some requests

The view or the operator may panic on some of what they are asked for.  A block of a reduction carries a result
to its end with such code, or one of its lanes is stopped.

* `Reduction.Takes.folds_of_answered` — a block carries the same as with other code if nothing is refused.
* `Reduction.Carries`, `Reduction.StopsUnless` — whether a block has a result, and how its lanes stop.
* `Reduction.WritesResult` — what a block writes.
* `Reduction.exists_plan_writesResult` — the blocks of a reduction stop and write so.
* `Reduction.Blames`, `Reduction.blocks_blamed` — a reduction reports a refusal in a block without a result, and
  which one this can be.
-/

set_option autoImplicit false

namespace BlockMachine

open Request BlockScan

namespace Reduction

variable {σ : Type} {strict lenient : Callbacks σ σ} {refusal : Request σ σ → Option Panic}
  {items : Nat → σ}

/-! ## Blocks without refusals -/

/-- The first stage of each round is among the stages of a scan. -/
theorem readStage_mem_stages {α : Type} (n : Nat) (values : Nat → Nat → σ) {first round rounds : Nat}
    (hfirst : first ≤ round) (h : round < first + rounds) :
    (readStage n values round : Stage σ α) ∈ BlockScan.stages n values first rounds := by
  induction rounds generalizing first with
  | zero => omega
  | succ rounds ih =>
    rcases Nat.eq_or_lt_of_le hfirst with rfl | hlater
    · exact List.mem_cons_self
    · exact List.mem_cons_of_mem _ (List.mem_cons_of_mem _ (ih hlater (by omega)))

section Answered

variable (hrefuses : strict.Refuses lenient refusal)

include hrefuses

/-- A combination that is not refused is the same. -/
theorem combine_eq {left right : σ} (h : refusal (.combine left right) = none) :
    strict.combine left right = lenient.combine left right :=
  hrefuses.alike (.combine left right) ⟨#[], #[]⟩ h

/-- The rounds of a scan without refusals are the same. -/
theorem values_of_answered {n width : Nat} {values : Nat → Nat → σ} (hn : n ≤ width)
    (hvalues : Values lenient n values)
    (hanswered : ∀ stage ∈ BlockScan.stages n values 0 (roundCount n), stage.Answered refusal width) :
    Values strict n values := by
  refine ⟨fun k i hle hi => ?_, hvalues.stays⟩
  -- later rounds have nothing to combine
  have hround : k < 0 + roundCount n := by
    by_contra hlate
    obtain ⟨more, rfl⟩ := Nat.exists_eq_add_of_le (Nat.le_of_not_lt (Nat.zero_add _ ▸ hlate))
    have hreach := le_distance_roundCount n
    have hmore := distance_le_add (roundCount n) more
    omega
  rw [← hvalues.combine k i hle hi]
  refine combine_eq hrefuses (hanswered _ (readStage_mem_stages n values (Nat.zero_le k) hround) i
    (Nat.lt_of_lt_of_le hi hn) _ ?_)
  rw [readStage, if_pos ⟨hle, hi⟩]
  simp

/-- The first lane takes up the same carry if it is not refused. -/
theorem carried_of_answered {n width : Nat} {carry : Option σ} {entry : σ} (hwidth : 0 < width)
    (hanswered : (carryStage carry n entry).Answered refusal width) :
    carried strict carry entry = carried lenient carry entry := by
  cases carry with
  | none => rfl
  | some carry =>
    refine combine_eq hrefuses (hanswered 0 hwidth _ ?_)
    rw [carryStage, if_pos rfl]
    simp

/-- **A block carries the same as with other code** if none of its requests is refused. -/
theorem Takes.folds_of_answered {carry last : Option σ} {width start stop : Nat} {list : List (Nat × Nat)}
    {stages : List (Stage σ σ)} (h : Takes lenient items carry list last stages)
    (hchunked : Chunked width start stop list)
    (hanswered : ∀ stage ∈ stages, stage.Answered refusal width) : Folds strict items carry list last := by
  induction h generalizing start with
  | nil carry => exact .nil carry
  | cons entries rounds hnext later ih =>
    cases hchunked with
    | cons hpos hn hlater =>
      obtain ⟨hchunk, hrest⟩ := List.forall_mem_append.mp hanswered
      obtain ⟨_, hscan⟩ := List.forall_mem_cons.mp hchunk
      obtain ⟨hscan, hcarry⟩ := List.forall_mem_append.mp hscan
      refine .cons entries (values_of_answered hrefuses hn rounds hscan) ?_ (ih hlater hrest)
      rw [carried_of_answered hrefuses (Nat.lt_of_lt_of_le hpos hn) (hcarry _ List.mem_cons_self), hnext]

/-- **The same items are given** if none is refused. -/
theorem gives_of_answered {width start stop : Nat} {calls : Array Nat} {stages : List (Stage σ σ)}
    (hgives : Gives lenient items start stop calls)
    (hasks : AsksEach start stop (stages.flatMap fun stage => stage.all width))
    (hanswered : ∀ stage ∈ stages, stage.Answered refusal width) : Gives strict items start stop calls := by
  intro index hle hlt
  obtain ⟨request, hr, hitem⟩ := hasks.exists_mem hle hlt
  obtain ⟨stage, hstage, hr⟩ := List.mem_flatMap.mp hr
  obtain ⟨lane, hlane, hr⟩ := Stage.mem_all.mp hr
  cases request with
  | fetch other =>
    obtain rfl : other = index := Option.some.inj hitem
    rw [← hgives other hle hlt]
    exact hrefuses.alike (.fetch other) ⟨#[], calls⟩ (hanswered stage hstage lane hlane _ hr)
  | _ => cases hitem

end Answered

/-! ## Blocks -/

/-- Whether a block has a result: all items of its interval are given, and no combination panics. -/
def Carries (callbacks : Callbacks σ σ) (items : Nat → σ) (calls : Array Nat) (width : Nat)
    (interval : Interval) : Prop :=
  Gives callbacks items interval.start interval.stop calls ∧
    ∃ total, Folds callbacks items none (chunks interval width) (some total)

/-- How the lanes of a block stop that ends well if it is sound, and breaks off with certain panics if not. -/
structure StopsUnless (told : Panic → Prop) (width : Nat) (sound : Prop) (stops : Nat → Stop σ σ Unit) :
    Prop where
  well : sound → Block.EndWell width stops
  breaks : ¬ sound → Block.Breaks width stops
  told : ∀ lane < width, ∀ panic, stops lane = .faulted panic → told panic

/-- What a block writes that has a result or none: the result to the slot of its number, and nothing else. -/
structure WritesResult (block : Nat) (result : Option σ) (requests : List (Request σ σ)) : Prop where
  made : ∀ total, result = some total → .write block total ∈ requests
  only : ∀ request ∈ requests, request.Silent ∨ ∃ total, result = some total ∧ request = .write block total

/-- A block that takes its chunks writes its result at the end. -/
theorem Takes.writesResult {total : σ} {list : List (Nat × Nat)} {stages : List (Stage σ σ)}
    (h : Takes strict items none list (some total) stages) {width : Nat} (hwidth : 0 < width) (block : Nat) :
    WritesResult block (some total)
      ((stages ++ [resultStage block total]).flatMap fun stage => stage.all width) := by
  have hlast : (resultStage block total : Stage σ σ).all width = [.write block total] :=
    Stage.all_of_first hwidth fun lane hlane => if_neg hlane
  rw [List.flatMap_append, List.flatMap_singleton, hlast]
  refine ⟨fun other hother => ?_, fun request hr => ?_⟩
  · rw [Option.some.inj hother]
    exact List.mem_append_right _ (List.mem_singleton_self _)
  · rcases List.mem_append.mp hr with hr | hr
    · obtain ⟨stage, hstage, hr⟩ := List.mem_flatMap.mp hr
      obtain ⟨lane, _, hr⟩ := Stage.mem_all.mp hr
      exact .inl (h.silent stage hstage lane request hr)
    · exact .inr ⟨total, rfl, List.mem_singleton.mp hr⟩

/-- A block that breaks off has not come to the write of its result. -/
theorem silent_of_off {lenient : Callbacks σ σ} {total : σ} {list : List (Nat × Nat)} {width block : Nat}
    {stages past future : List (Stage σ σ)} {stage : Stage σ σ}
    (h : Takes lenient items none list (some total) stages) (hwrite : refusal (.write block total) = none)
    (parts : stages ++ [resultStage block total] = past ++ stage :: future)
    (hrefused : ¬ stage.Answered refusal width) :
    ∀ request ∈ (past ++ [stage.upTo refusal]).flatMap fun stage => stage.all width, request.Silent := by
  -- the refusal comes before the last stage
  have hbefore : past ++ [stage] <+: stages := by
    rcases List.eq_nil_or_concat future with rfl | ⟨front, last, rfl⟩
    · obtain ⟨_, hstage⟩ := List.append_inj' parts rfl
      refine absurd (fun lane _ request hr => ?_) hrefused
      rw [← (List.cons.inj hstage).1, resultStage] at hr
      split at hr
      · rw [List.mem_singleton.mp hr, hwrite]
      · cases hr
    · rw [List.concat_eq_append, ← List.cons_append, ← List.append_assoc] at parts
      obtain ⟨hstages, _⟩ := List.append_inj' parts rfl
      exact ⟨front, by rw [hstages, List.append_assoc, List.singleton_append]⟩
  intro request hr
  obtain ⟨other, hother, hr⟩ := List.mem_flatMap.mp hr
  obtain ⟨lane, hlane, hr⟩ := Stage.mem_all.mp hr
  rcases List.mem_append.mp hother with hother | hother
  · exact h.silent other (hbefore.subset (List.mem_append_left _ hother)) lane request hr
  · rw [List.mem_singleton.mp hother] at hr
    exact h.silent stage (hbefore.subset (List.mem_append_right _ List.mem_cons_self)) lane request
      (Request.upTo_subset refusal _ hr)

/-- **A block ends well and writes its result if it has one**, and breaks off at a refusal if not. -/
theorem exists_runs_writesResult (hrefuses : strict.Refuses lenient refusal)
    (hwrites : ∀ slot value, refusal (.write slot value) = none) {told : Panic → Prop}
    (geometry : Geometry) {cut : Decomposition} (hcut : cut.WithinWord)
    (htold : ∀ request panic, (∀ index, request.item? = some index → index < cut.total) →
      refusal request = some panic → told panic) (hthreads : 0 < geometry.threads) {block : Nat}
    (hblock : block < cut.count) {length : Nat} (hlength : cut.count ≤ length) {slots : Array σ}
    (hsize : slots.size = geometry.threads) {calls : Array Nat}
    (hlenient : Carries lenient items calls geometry.threads (cut.span block)) {result : Option σ}
    (hsome : ∀ total, result = some total →
      Gives strict items (cut.start block) (cut.start (block + 1)) calls ∧
        Folds strict items none (chunks (cut.span block) geometry.threads) (some total))
    (hnone : result = none → ¬ Carries strict items calls geometry.threads (cut.span block)) :
    ∃ stages stops, Block.Runs strict geometry.threads
      (fun lane => program cut (.whole 0 1 length) (geometry.context block lane)) ⟨slots, calls⟩ stages stops ∧
      (∀ request ∈ stages.flatMap fun stage => stage.all geometry.threads, ∀ index,
        request.item? = some index → cut.start block ≤ index ∧ index < cut.start (block + 1)) ∧
      StopsUnless told geometry.threads
        (Carries strict items calls geometry.threads (cut.span block)) stops ∧
      WritesResult block result (stages.flatMap fun stage => stage.all geometry.threads) := by
  cases result with
  | some total =>
    obtain ⟨hgives, hfolds⟩ := hsome total rfl
    obtain ⟨stages, htakes⟩ := hfolds.exists_takes
    obtain ⟨hruns, hasks, _⟩ := runs_program geometry hcut hthreads hblock hlength hsize hgives htakes
    exact ⟨_, _, hruns, fun request hr index => hasks.mem_interval hr,
      ⟨fun _ _ _ => ⟨(), rfl⟩, fun hnot => absurd ⟨hgives, total, hfolds⟩ hnot, nofun⟩,
      htakes.writesResult hthreads block⟩
  | none =>
    have hunsound := hnone rfl
    obtain ⟨hgives, total, hfolds⟩ := hlenient
    obtain ⟨stages, htakes⟩ := hfolds.exists_takes
    obtain ⟨hruns, hasks, _⟩ := runs_program geometry hcut hthreads hblock hlength hsize hgives htakes
    obtain ⟨broken, stops, hbroken, hoff⟩ := hruns.exists_brokenOff hrefuses fun _ _ => ⟨(), rfl⟩
    have hbreaks : Block.Breaks geometry.threads stops ∧
        ∀ request ∈ broken.flatMap fun stage => stage.all geometry.threads, request.Silent := by
      cases hoff with
      | whole answered _ =>
        -- without a refusal the block would have a result
        have hle : cut.start block ≤ cut.start (block + 1) := cut.start_mono (Nat.le_succ block)
        have hchunks : ∀ stage ∈ stages, stage.Answered refusal geometry.threads :=
          fun stage hstage => answered stage (List.mem_append_left _ hstage)
        exact absurd ⟨gives_of_answered hrefuses hgives hasks answered, total,
          htakes.folds_of_answered hrefuses (chunked_chunks hthreads (cut.span block) hle) hchunks⟩ hunsound
      | off parts _ refused faulted =>
        obtain ⟨lane, hlane, panic, hpanic⟩ := Stage.exists_findSome? refused
        exact ⟨⟨lane, hlane, panic, (faulted lane hlane panic).mpr hpanic⟩,
          silent_of_off htakes (hwrites block total) parts refused⟩
    refine ⟨broken, stops, hbroken, fun request hr index => hasks.mem_interval (hoff.subset hr),
      ⟨fun h => absurd h hunsound, fun _ => hbreaks.1, fun lane hlane panic hpanic => ?_⟩,
      ⟨nofun, fun request hr => .inl (hbreaks.2 request hr)⟩⟩
    obtain ⟨request, hr, hrefusal⟩ := hoff.refused hlane hpanic
    refine htold request panic (fun index hitem => ?_) hrefusal
    exact Nat.lt_of_lt_of_le (hasks.mem_interval hr hitem).2 (cut.start_le_total hblock)

/-! ## Launches -/

/-- What a launch reports some of whose blocks are not sound: a panic of one of them, and if the blocks begin
one at a time those before it are sound. -/
def Blames (told : Panic → Prop) (scheduling : Scheduling) (count : Nat) (sound : Nat → Prop)
    (answer : Except Failure Unit) : Prop :=
  ∃ block < count, ¬ sound block ∧ (∀ other < count, scheduling.Before other block → sound other) ∧
    ∃ panic, told panic ∧ answer = .error (.error (.kernelFault block panic.report))

section Launches

variable {config : LaunchConfig} {blank : σ} {op : σ → σ → Except Panic σ} {view : View σ}
  {cut : Decomposition} {length : Nat} {calls : Array Nat}

variable (blank) in
/-- **The blocks of a reduction end well and write their results**, and break off at a refusal if they have none. -/
theorem exists_plan_writesResult (hvalid : config.validate = .ok ()) (hcut : cut.WithinWord)
    (hsize : cut.count ≤ length)
    (hrefuses : (⟨view.item, op, Element.cloned 1⟩ : Callbacks σ σ).Refuses lenient refusal)
    (hwrites : ∀ slot value, refusal (.write slot value) = none) {told : Panic → Prop}
    (htold : ∀ request panic, (∀ index, request.item? = some index → index < cut.total) →
      refusal request = some panic → told panic)
    (hlenient : ∀ block < cut.count, Carries lenient items calls config.width (cut.span block))
    {result : Nat → Option σ} (hsome : ∀ block < cut.count, ∀ total, result block = some total →
      Gives (⟨view.item, op, Element.cloned 1⟩ : Callbacks σ σ) items (cut.start block) (cut.start (block + 1))
        calls ∧
      Folds ⟨view.item, op, Element.cloned 1⟩ items none (chunks (cut.span block) config.width) (some total))
    (hnone : ∀ block < cut.count, result block = none →
      ¬ Carries ⟨view.item, op, Element.cloned 1⟩ items calls config.width (cut.span block)) :
    ∃ plan : Plan (kernel blank op view cut length) (config.geometry cut.count) calls,
      ∀ block < cut.count, StopsUnless told config.width
        (Carries ⟨view.item, op, Element.cloned 1⟩ items calls config.width (cut.span block))
        (plan.stops block) ∧ WritesResult block (result block) (plan.requests block) := by
  obtain ⟨hwidth, _⟩ := LaunchConfig.width_of_validate hvalid
  have hslots : (Slots.blank config.width blank).size = config.width := Array.size_replicate ..
  refine Plan.exists_of_intervals (kernel blank op view cut length) (config.geometry cut.count) calls rfl cut
    (fun block stages stops => StopsUnless told config.width
      (Carries ⟨view.item, op, Element.cloned 1⟩ items calls config.width (cut.span block)) stops ∧
      WritesResult block (result block) (stages.flatMap fun stage => stage.all config.width))
    fun block hblock => ?_
  exact exists_runs_writesResult hrefuses hwrites (config.geometry cut.count) hcut htold hwidth hblock hsize
    hslots (hlenient block hblock) (hsome block hblock) (hnone block hblock)

variable (blank) in
/-- **The blocks of a reduction end well if they have results**, and break off at a refusal if not. -/
theorem exists_plan_stopsUnless (hvalid : config.validate = .ok ()) (hcut : cut.WithinWord)
    (hsize : cut.count ≤ length)
    (hrefuses : (⟨view.item, op, Element.cloned 1⟩ : Callbacks σ σ).Refuses lenient refusal)
    (hwrites : ∀ slot value, refusal (.write slot value) = none) {told : Panic → Prop}
    (htold : ∀ request panic, refusal request = some panic → told panic)
    (hlenient : ∀ block < cut.count, Carries lenient items calls config.width (cut.span block)) :
    ∃ plan : Plan (kernel blank op view cut length) (config.geometry cut.count) calls,
      ∀ block < cut.count, StopsUnless told config.width
        (Carries ⟨view.item, op, Element.cloned 1⟩ items calls config.width (cut.span block))
        (plan.stops block) := by
  have hresult : ∀ block, ∃ result : Option σ, (∀ total, result = some total →
      Gives (⟨view.item, op, Element.cloned 1⟩ : Callbacks σ σ) items (cut.start block) (cut.start (block + 1))
        calls ∧
      Folds ⟨view.item, op, Element.cloned 1⟩ items none (chunks (cut.span block) config.width) (some total)) ∧
      (result = none → ¬ Carries ⟨view.item, op, Element.cloned 1⟩ items calls config.width (cut.span block)) := by
    intro block
    by_cases hcarries : Carries ⟨view.item, op, Element.cloned 1⟩ items calls config.width (cut.span block)
    · obtain ⟨hgives, total, hfolds⟩ := hcarries
      refine ⟨some total, fun other hother => ?_, nofun⟩
      rw [← hother]
      exact ⟨hgives, hfolds⟩
    · exact ⟨none, nofun, fun _ => hcarries⟩
  choose result hsome hnone using hresult
  obtain ⟨plan, hplan⟩ := exists_plan_writesResult blank hvalid hcut hsize hrefuses hwrites
    (fun request panic _ => htold request panic) hlenient (fun block _ => hsome block) fun block _ => hnone block
  exact ⟨plan, fun block hblock => (hplan block hblock).1⟩

variable {plan : Plan (kernel blank op view cut length) (config.geometry cut.count) calls}
  {told : Panic → Prop} {sound : Nat → Prop}
  (hstops : ∀ block < cut.count, StopsUnless told config.width (sound block) (plan.stops block))

include hstops

/-- Blocks that break off are told of, unless their panics are release signals. -/
theorem breakable_of_stopsUnless (hspeaks : ∀ panic, told panic → panic.isRelease = false) :
    plan.Breakable := by
  refine ⟨fun block hblock => ?_, fun block hblock lane hlane panic hpanic => ?_⟩
  · by_cases hsound : sound block
    · exact .inl ((hstops block hblock).well hsound)
    · exact .inr ((hstops block hblock).breaks hsound)
  · exact hspeaks panic ((hstops block hblock).told lane hlane panic hpanic)

/-- What a launch tells one of whose blocks breaks off. -/
theorem blames_of_breaks {scheduling : Scheduling} {block : Nat} {panic : Panic}
    {requests : List (Request σ σ)} (h : plan.Breaks scheduling block panic requests) :
    Blames told scheduling cut.count sound (.error (.error (.kernelFault block panic.report))) := by
  obtain ⟨lane, hlane, hpanic⟩ := h.faulted
  refine ⟨block, h.lt, fun hsound => ?_, fun other hother hbefore => ?_, panic,
    (hstops block h.lt).told lane hlane panic hpanic, rfl⟩
  · obtain ⟨result, hresult⟩ := (hstops block h.lt).well hsound lane hlane
    rw [hpanic] at hresult
    cases hresult
  · by_contra hsound
    obtain ⟨lane, hlane, panic, hpanic⟩ := (hstops other hother).breaks hsound
    obtain ⟨result, hresult⟩ := h.before other hother hbefore lane hlane
    rw [hpanic] at hresult
    cases hresult

end Launches

/-- What holds of the runs of a launch some of whose blocks are not sound, whatever turns its lanes take. -/
structure BlameRuns (told : Panic → Prop) (scheduling : Scheduling) (count : Nat) (sound : Nat → Prop)
    (run : List (Nat × Nat) → Grid σ σ) (places : List (Nat × Nat)) : Prop where
  /-- Every run can be brought to its end, -/
  ends : ∃ more, (run (places ++ more)).isOver = true
  /-- and then it reports one of them. -/
  reports : (run places).isOver = true → ∀ answer, (run places).Answers answer →
    Blames told scheduling count sound answer

/-- **A reduction some of whose blocks have no result reports a refusal** in one of them, in each order of the
blocks that its scheduling admits and whatever turns its lanes take. -/
theorem blocks_blamed {config : LaunchConfig} (blank : σ) {op : σ → σ → Except Panic σ} {view : View σ}
    {cut : Decomposition} {before : Store σ} (hvalid : config.validate = .ok ())
    (hlength : view.length = cut.total) (hcut : cut.WithinWord) (hsize : cut.count ≤ before.output.size)
    (hrefuses : (⟨view.item, op, Element.cloned 1⟩ : Callbacks σ σ).Refuses lenient refusal)
    (hwrites : ∀ slot value, refusal (.write slot value) = none) {told : Panic → Prop}
    (htold : ∀ request panic, refusal request = some panic → told panic)
    (hspeaks : ∀ panic, told panic → panic.isRelease = false)
    (hlenient : ∀ block < cut.count,
      Carries lenient items before.journal.calls config.width (cut.span block))
    {sound : Nat → Prop} (hsound : ∀ block < cut.count, sound block ↔ Carries
      ⟨view.item, op, Element.cloned 1⟩ items before.journal.calls config.width (cut.span block))
    (hunsound : ∃ block < cut.count, ¬ sound block) :
    (∀ order : Nat → List Nat, (order cut.count).Perm (List.range cut.count) →
      (config.scheduling = .parallel ∨ config.scheduling.order cut.count = order cut.count) →
      Blames told config.scheduling cut.count sound
        (reduceInOrder order config blank op view cut before).1) ∧
    ∀ scheduling places, BlameRuns told scheduling cut.count sound
      (Grid.run scheduling (kernel blank op view cut before.output.size) (config.geometry cut.count)
        ((logged cut before).launched config cut.count)) places := by
  obtain ⟨plan, hplan⟩ := exists_plan_stopsUnless blank hvalid hcut hsize hrefuses hwrites htold hlenient
  have hstops : ∀ block < cut.count,
      StopsUnless told config.width (sound block) (plan.stops block) := by
    intro block hblock
    rw [hsound block hblock]
    exact hplan block hblock
  have hbreakable := breakable_of_stopsUnless hstops hspeaks
  have hbreaks : ∃ block < cut.count, Block.Breaks config.width (plan.stops block) := by
    obtain ⟨block, hblock, hnot⟩ := hunsound
    exact ⟨block, hblock, (hstops block hblock).breaks hnot⟩
  have hcalls : (logged cut before).journal.calls = before.journal.calls := rfl
  have hlaunched : ((logged cut before).launched config cut.count).journal.calls =
      before.journal.calls := rfl
  refine ⟨fun order horder hadmits => ?_, fun scheduling places =>
    ⟨hbreakable.exists_over hlaunched scheduling places, fun hover answer hanswer => ?_⟩⟩
  · have hcount : 0 < cut.count := Nat.zero_lt_of_lt hunsound.choose_spec.1
    obtain ⟨block, panic, after, _, hlaunch, hreport, _⟩ :=
      Plan.launchInOrder_breaks hbreakable hvalid hcount horder hadmits hcalls hbreaks
    rw [reduceInOrder_eq order config blank op hlength hcount hsize, hlaunch]
    exact blames_of_breaks hstops hreport
  · obtain ⟨block, panic, rfl, hreport⟩ := hbreakable.breaks_of_isOver hlaunched hbreaks hover hanswer
    exact blames_of_breaks hstops hreport

end Reduction

end BlockMachine
