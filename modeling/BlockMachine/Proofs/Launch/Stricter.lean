import BlockMachine.Proofs.Launch.Intervals

/-!
# Code that panics where other code answers

A launch is followed with code of the caller that always answers.  With code that panics on some of the
requests its lanes do the same, but some of them stop early.

* `Callbacks.Stricter` — code that gives the answers of other code or panics.
* `Callbacks.Stricter.segment_eq_or` — a lane does the same as with the other code, or stops at a refusal.
* `Block.Runs.exists_curtailed`, `Plan.exists_curtailed` — so does a block, and a whole launch.
* `Plan.launchInOrder_leaves` — what a launch leaves and reports some of whose lanes stop with a panic.
-/

set_option autoImplicit false

namespace BlockMachine

variable {σ α β : Type} {strict lenient : Callbacks σ α} {lanes : Nat}

/-- Whether a request panics with some code and is answered differently with other code. -/
def Request.Refused (strict lenient : Callbacks σ α) (request : Request σ α) (panic : Panic) : Prop :=
  ∃ sight, request.answer strict sight = .error panic ∧
    request.answer lenient sight ≠ .error panic

/-- Whether a request panics wherever it is made. -/
def Request.Panics (callbacks : Callbacks σ α) (request : Request σ α) : Prop :=
  ∀ sight, ∃ panic, request.answer callbacks sight = .error panic

/-- Code that gives the answers of other code or panics. -/
structure Callbacks.Stricter (strict lenient : Callbacks σ α) : Prop where
  answers : ∀ (request : Request σ α) sight,
    request.answer strict sight = request.answer lenient sight ∨
      ∃ panic, request.answer strict sight = .error panic
  counts : ∀ index, strict.Counts index → lenient.Counts index

/-! ## Lanes -/

/-- A request that always panics is the last one of its lane. -/
theorem Lane.faulted_of_panics {callbacks : Callbacks σ α} {program : Lane σ α β} {sight : Sight σ}
    {request : Request σ α} (hr : request ∈ (program.segment callbacks sight).1)
    (hpanics : request.Panics callbacks) :
    ∃ panic, (program.segment callbacks sight).2 = .faulted panic := by
  induction program generalizing sight with
  | done _ => cases hr
  | fault _ => cases hr
  | barrier _ _ => cases hr
  | ask other next ih =>
    cases hanswer : other.answer callbacks sight with
    | error panic => exact ⟨panic, by rw [segment_ask_error hanswer]⟩
    | ok answer =>
      rw [segment_ask_ok hanswer] at hr ⊢
      rcases List.mem_cons.mp hr with rfl | hr
      · obtain ⟨panic, hpanic⟩ := hpanics sight
        rw [hanswer] at hpanic
        cases hpanic
      · exact ih answer hr

namespace Callbacks.Stricter

variable (hstrict : strict.Stricter lenient)

include hstrict

/-- **A lane does the same as with the other code, or stops at a refusal.** -/
theorem segment_eq_or {program : Lane σ α β} {sight : Sight σ} {requests : List (Request σ α)}
    {stop : Stop σ α β} (h : program.segment lenient sight = (requests, stop)) :
    (program.segment strict sight).1 ⊆ requests ∧
      (program.segment strict sight = (requests, stop) ∨
        ∃ panic, (program.segment strict sight).2 = .faulted panic ∧
          ∃ request ∈ requests, request.Refused strict lenient panic) := by
  induction program generalizing sight requests with
  | done _ =>
    cases h
    exact ⟨List.Subset.refl _, .inl rfl⟩
  | fault _ =>
    cases h
    exact ⟨List.Subset.refl _, .inl rfl⟩
  | barrier _ _ =>
    cases h
    exact ⟨List.Subset.refl _, .inl rfl⟩
  | ask request next ih =>
    -- the request is among those made with the other code, whether or not that answers it
    have hmem : request ∈ requests := by
      cases hanswer : request.answer lenient sight with
      | error panic =>
        rw [Lane.segment_ask_error hanswer] at h
        cases h
        exact List.mem_singleton_self request
      | ok answer =>
        rw [Lane.segment_ask_ok hanswer] at h
        cases h
        exact List.mem_cons_self
    cases hanswer : request.answer strict sight with
    | error panic =>
      rw [Lane.segment_ask_error hanswer]
      refine ⟨List.cons_subset.mpr ⟨hmem, List.nil_subset _⟩, ?_⟩
      by_cases hsame : request.answer lenient sight = .error panic
      · rw [Lane.segment_ask_error hsame] at h
        exact .inl h
      · exact .inr ⟨panic, rfl, request, hmem, sight, hanswer, hsame⟩
    | ok answer =>
      have hlenient : request.answer lenient sight = .ok answer := by
        rcases hstrict.answers request sight with hsame | ⟨panic, hpanic⟩
        · rw [← hsame, hanswer]
        · rw [hanswer] at hpanic
          cases hpanic
      rw [Lane.segment_ask_ok hlenient] at h
      cases hsegment : (next answer).segment lenient (request.see sight) with
      | mk later ending =>
        rw [hsegment] at h
        cases h
        obtain ⟨hsubset, hrest⟩ := ih answer hsegment
        rw [Lane.segment_ask_ok hanswer]
        refine ⟨List.cons_subset_cons request hsubset, ?_⟩
        rcases hrest with hsame | ⟨panic, hfaulted, other, hother, hrefused⟩
        · exact .inl (by rw [hsame])
        · exact .inr ⟨panic, hfaulted, other, List.mem_cons_of_mem _ hother, hrefused⟩

/-- Requests that do not clash with the other code do not clash. -/
theorem clashes {request other : Request σ α} (h : request.Clashes strict other) :
    request.Clashes lenient other := by
  rcases h with hslot | hslot | ⟨index, hitem, hitem', hcounts⟩
  · exact .inl hslot
  · exact .inr (.inl hslot)
  · exact .inr (.inr ⟨index, hitem, hitem', hstrict.counts index hcounts⟩)

end Callbacks.Stricter

/-! ## Blocks -/

namespace Block

/-- Whether some lane stops with a panic. -/
def Breaks (lanes : Nat) (stops : Nat → Stop σ α β) : Prop :=
  ∃ lane < lanes, ∃ panic, stops lane = .faulted panic

/-- What a block asks with stricter code that would make certain requests, and how its lanes stop. -/
structure Curtailed (strict lenient : Callbacks σ α) (lanes : Nat)
    (requests curtailed : List (Request σ α)) (stops : Nat → Stop σ α β) : Prop where
  subset : curtailed ⊆ requests
  ends : EndWell lanes stops ∨ Breaks lanes stops
  refused : ∀ lane < lanes, ∀ panic, stops lane = .faulted panic →
    ∃ request ∈ requests, request.Refused strict lenient panic
  breaks : (∃ request ∈ requests, request.Panics strict) → Breaks lanes stops

variable (hstrict : strict.Stricter lenient)

include hstrict

/-- A block that comes to a refusal stops there. -/
theorem exists_curtailed_of_breaks {programs : Nat → Lane σ α β} {sight : Sight σ}
    {stage : Stage σ α} {usual : Nat → Stop σ α β} {requests : List (Request σ α)}
    (segment : ∀ lane < lanes, (programs lane).segment lenient sight = (stage lane, usual lane))
    (apart : stage.Apart lenient lanes) (husual : ∀ lane < lanes, ∀ panic, usual lane ≠ .faulted panic)
    (hrequests : stage.all lanes ⊆ requests)
    (hbreaks : Breaks lanes fun lane => ((programs lane).segment strict sight).2) :
    ∃ (stages : List (Stage σ α)) (stops : Nat → Stop σ α β),
      Runs strict lanes programs sight stages stops ∧
      Curtailed strict lenient lanes requests (stages.flatMap fun stage => stage.all lanes) stops := by
  have hlanes := fun lane hlane => hstrict.segment_eq_or (segment lane hlane)
  have hmem : ∀ lane < lanes, ∀ request ∈ stage lane, request ∈ requests :=
    fun lane hlane request hr => hrequests (Stage.mem_all.mpr ⟨lane, hlane, hr⟩)
  refine ⟨[fun lane => ((programs lane).segment strict sight).1],
    fun lane => ((programs lane).segment strict sight).2, .stop (fun _ _ => rfl) ?_ ?_, ?_, .inr hbreaks,
    ?_, fun _ => hbreaks⟩
  · intro i hi j hj hne request hr other hother hclash
    exact apart i hi j hj hne request ((hlanes i hi).1 hr) other ((hlanes j hj).1 hother)
      (hstrict.clashes hclash)
  · obtain ⟨lane, hlane, panic, hpanic⟩ := hbreaks
    have hstop : ((programs lane).segment strict sight).2 = .faulted panic := hpanic
    exact ⟨lane, hlane, by rw [hstop]; rfl⟩
  · rw [List.flatMap_singleton]
    intro request hr
    obtain ⟨lane, hlane, hr⟩ := Stage.mem_all.mp hr
    exact hmem lane hlane request ((hlanes lane hlane).1 hr)
  · intro lane hlane panic hpanic
    rcases (hlanes lane hlane).2 with hsame | ⟨panic', hfaulted, request, hr, hrefused⟩
    · rw [hsame] at hpanic
      exact absurd hpanic (husual lane hlane panic)
    · rw [hpanic] at hfaulted
      cases hfaulted
      exact ⟨request, hmem lane hlane request hr, hrefused⟩

/-- A stage that no lane breaks off is as with the other code, and none of its requests panics. -/
theorem segment_of_not_breaks {programs : Nat → Lane σ α β} {sight : Sight σ} {stage : Stage σ α}
    {usual : Nat → Stop σ α β}
    (segment : ∀ lane < lanes, (programs lane).segment lenient sight = (stage lane, usual lane))
    (hbreaks : ¬ Breaks lanes fun lane => ((programs lane).segment strict sight).2) :
    (∀ lane < lanes, (programs lane).segment strict sight = (stage lane, usual lane)) ∧
      ∀ request ∈ stage.all lanes, ¬ request.Panics strict := by
  have hsame : ∀ lane < lanes, (programs lane).segment strict sight = (stage lane, usual lane) := by
    intro lane hlane
    rcases (hstrict.segment_eq_or (segment lane hlane)).2 with hsame | ⟨panic, hfaulted, _⟩
    · exact hsame
    · exact absurd ⟨lane, hlane, panic, hfaulted⟩ hbreaks
  refine ⟨hsame, fun request hr hpanics => hbreaks ?_⟩
  obtain ⟨lane, hlane, hr⟩ := Stage.mem_all.mp hr
  obtain ⟨panic, hpanic⟩ := Lane.faulted_of_panics (by rw [hsame lane hlane]; exact hr) hpanics
  exact ⟨lane, hlane, panic, hpanic⟩

/-- **A block that would end well** makes no other requests with stricter code, and ends well or stops at
a refusal. -/
theorem Runs.exists_curtailed {programs : Nat → Lane σ α β} {sight : Sight σ}
    {stages : List (Stage σ α)} {stops : Nat → Stop σ α β}
    (h : Runs lenient lanes programs sight stages stops) (hends : EndWell lanes stops) :
    ∃ (curtailed : List (Stage σ α)) (stops' : Nat → Stop σ α β),
      Runs strict lanes programs sight curtailed stops' ∧
      Curtailed strict lenient lanes (stages.flatMap fun stage => stage.all lanes)
        (curtailed.flatMap fun stage => stage.all lanes) stops' := by
  induction h with
  | @stop programs sight stage stops segment apart halts =>
    have hfinished : ∀ lane < lanes, ∀ panic, stops lane ≠ .faulted panic := by
      intro lane hlane panic hpanic
      obtain ⟨result, hresult⟩ := hends lane hlane
      rw [hpanic] at hresult
      cases hresult
    by_cases hbreaks : Breaks lanes fun lane => ((programs lane).segment strict sight).2
    · exact exists_curtailed_of_breaks hstrict segment apart hfinished (by simp) hbreaks
    · obtain ⟨hsame, hanswered⟩ := segment_of_not_breaks hstrict segment hbreaks
      refine ⟨[stage], stops, .stop hsame ?_ halts, List.Subset.refl _, .inl hends,
        fun lane hlane panic hpanic => absurd hpanic (hfinished lane hlane panic), ?_⟩
      · exact fun i hi j hj hne request hr other hother hclash =>
          apart i hi j hj hne request hr other hother (hstrict.clashes hclash)
      · rintro ⟨request, hr, hpanics⟩
        rw [List.flatMap_singleton] at hr
        exact absurd hpanics (hanswered request hr)
  | @pass programs next sight stage stages stops segment apart later ih =>
    by_cases hbreaks : Breaks lanes fun lane => ((programs lane).segment strict sight).2
    · exact exists_curtailed_of_breaks hstrict segment apart (fun _ _ _ => nofun)
        (List.subset_append_left _ _) hbreaks
    · obtain ⟨hsame, hanswered⟩ := segment_of_not_breaks hstrict segment hbreaks
      obtain ⟨curtailed, stops', hruns, hcurtailed⟩ := ih hends
      refine ⟨stage :: curtailed, stops', .pass hsame ?_ hruns, ?_, hcurtailed.ends, ?_, ?_⟩
      · exact fun i hi j hj hne request hr other hother hclash =>
          apart i hi j hj hne request hr other hother (hstrict.clashes hclash)
      · exact List.append_subset.mpr ⟨List.subset_append_left _ _,
          List.Subset.trans hcurtailed.subset (List.subset_append_right _ _)⟩
      · intro lane hlane panic hpanic
        obtain ⟨request, hr, hrefused⟩ := hcurtailed.refused lane hlane panic hpanic
        exact ⟨request, List.mem_append_right _ hr, hrefused⟩
      · rintro ⟨request, hr, hpanics⟩
        rcases List.mem_append.mp hr with hr | hr
        · exact absurd hpanics (hanswered request hr)
        · exact hcurtailed.breaks ⟨request, hr, hpanics⟩

omit hstrict in
/-- How a block ends some of whose lanes stop with a panic. -/
theorem verdict_of_breaks {stops : Nat → Stop σ α β} (h : Breaks lanes stops) :
    verdict ((List.range lanes).map stops) = .abandoned ∨
      ∃ lane < lanes, ∃ panic, stops lane = .faulted panic ∧ panic.isRelease = false ∧
        verdict ((List.range lanes).map stops) = .faulted panic.report := by
  obtain ⟨lane, hlane, panic, hstop⟩ := h
  have hmem : panic ∈ ((List.range lanes).map stops).filterMap Stop.panic? := by
    rw [List.mem_filterMap]
    exact ⟨stops lane, List.mem_map_of_mem (List.mem_range.mpr hlane), by rw [hstop]; rfl⟩
  have hpanics : ∀ panic ∈ ((List.range lanes).map stops).filterMap Stop.panic?,
      ∃ lane < lanes, stops lane = .faulted panic := by
    intro panic hpanic
    obtain ⟨stop, hstop, hpanic⟩ := List.mem_filterMap.mp hpanic
    obtain ⟨lane, hlane, rfl⟩ := List.mem_map.mp hstop
    refine ⟨lane, List.mem_range.mp hlane, ?_⟩
    cases hcase : stops lane with
    | faulted panic' =>
      rw [hcase] at hpanic
      exact congrArg Stop.faulted (Option.some.inj hpanic)
    | finished result =>
      rw [hcase] at hpanic
      cases hpanic
    | waiting next =>
      rw [hcase] at hpanic
      cases hpanic
  unfold verdict
  generalize ((List.range lanes).map stops).filterMap Stop.panic? = panics at hmem hpanics ⊢
  cases panics with
  | nil => cases hmem
  | cons first rest =>
    cases hfind : (first :: rest).find? fun panic => !panic.isRelease with
    | none => exact .inl (by simp only [hfind])
    | some found =>
      obtain ⟨lane, hlane, hfound⟩ := hpanics found (List.mem_of_find?_eq_some hfind)
      have hrelease : found.isRelease = false := by simpa using List.find?_some hfind
      exact .inr ⟨lane, hlane, found, hfound, hrelease, by simp only [hfind]⟩

omit hstrict in
/-- A block that stops at a refusal has a fault, unless the refusal is a release signal. -/
theorem Curtailed.faults {requests curtailed : List (Request σ α)} {stops : Nat → Stop σ α β}
    (h : Curtailed strict lenient lanes requests curtailed stops)
    (hrelease : ∀ request ∈ requests, ∀ panic, request.Refused strict lenient panic →
      panic.isRelease = false) (hbreaks : Breaks lanes stops) : Faults lanes stops := by
  obtain ⟨lane, hlane, panic, hpanic⟩ := hbreaks
  obtain ⟨request, hr, hrefused⟩ := h.refused lane hlane panic hpanic
  exact ⟨lane, hlane, panic, hpanic, hrelease request hr panic hrefused⟩

end Block

/-! ## Launches -/

namespace Plan

variable {kernel : Kernel σ α} {geometry : Geometry} {calls : Array Nat}

/-- Other code that lets each block make some of the planned requests has a plan as well. -/
theorem exists_of_subset (plan : Plan kernel geometry calls)
    (hcounts : ∀ index, strict.Counts index → kernel.callbacks.Counts index)
    (Does : Nat → List (Stage σ α) → (Nat → Stop σ α Unit) → Prop)
    (h : ∀ block < geometry.blocks, ∃ (stages : List (Stage σ α)) (stops : Nat → Stop σ α Unit),
      Block.Runs strict geometry.threads (fun lane => kernel.program (geometry.context block lane))
        ⟨plan.slots, calls⟩ stages stops ∧
      (stages.flatMap fun stage => stage.all geometry.threads) ⊆ plan.requests block ∧
      Does block stages stops) :
    ∃ plan' : Plan { kernel with callbacks := strict } geometry calls, ∀ block < geometry.blocks,
      Does block (plan'.stages block) (plan'.stops block) := by
  have hall : ∀ block, ∃ (stages : List (Stage σ α)) (stops : Nat → Stop σ α Unit),
      block < geometry.blocks →
        Block.Runs strict geometry.threads (fun lane => kernel.program (geometry.context block lane))
          ⟨plan.slots, calls⟩ stages stops ∧
        (stages.flatMap fun stage => stage.all geometry.threads) ⊆ plan.requests block ∧
        Does block stages stops := by
    intro block
    by_cases hblock : block < geometry.blocks
    · obtain ⟨stages, stops, hdoes⟩ := h block hblock
      exact ⟨stages, stops, fun _ => hdoes⟩
    · exact ⟨[], fun _ => .finished (), fun hlt => absurd hlt hblock⟩
  choose stages stops hdoes using hall
  refine ⟨⟨plan.slots, stages, stops, plan.slots_eq, fun block hblock => (hdoes block hblock).1, ?_⟩,
    fun block hblock => (hdoes block hblock).2.2⟩
  rintro block hblock other hother hne index ⟨hindex, stage, hstage, request, hr, hitem⟩ stage' hstage'
    request' hr'
  obtain ⟨planned, hplanned, hr⟩ := plan.mem_requests.mp
    ((hdoes block hblock).2.1 (List.mem_flatMap.mpr ⟨stage, hstage, hr⟩))
  obtain ⟨planned', hplanned', hr'⟩ := plan.mem_requests.mp
    ((hdoes other hother).2.1 (List.mem_flatMap.mpr ⟨stage', hstage', hr'⟩))
  exact plan.apart block hblock other hother hne index
    ⟨hcounts index hindex, planned, hplanned, request, hr, hitem⟩ planned' hplanned' request' hr'

/-- **A launch that would end well** has a plan also with stricter code. -/
theorem exists_curtailed (plan : Plan kernel geometry calls)
    (hstrict : strict.Stricter kernel.callbacks)
    (hends : ∀ block < geometry.blocks, Block.EndWell geometry.threads (plan.stops block)) :
    ∃ plan' : Plan { kernel with callbacks := strict } geometry calls, ∀ block < geometry.blocks,
      Block.Curtailed strict kernel.callbacks geometry.threads (plan.requests block)
        (plan'.requests block) (plan'.stops block) := by
  refine plan.exists_of_subset hstrict.counts (fun block stages stops =>
    Block.Curtailed strict kernel.callbacks geometry.threads (plan.requests block)
      (stages.flatMap fun stage => stage.all geometry.threads) stops) fun block hblock => ?_
  obtain ⟨stages, stops, hruns, hcurtailed⟩ :=
    (plan.runs block hblock).exists_curtailed hstrict (hends block hblock)
  exact ⟨stages, stops, hruns, hcurtailed.subset, hcurtailed⟩

variable (plan : Plan kernel geometry calls)

/-- A fault of a lane, as a launch reports it. -/
def Reports (plan : Plan kernel geometry calls) (failure : Failure) : Prop :=
  ∃ block < geometry.blocks, ∃ lane < geometry.threads, ∃ panic,
    plan.stops block lane = .faulted panic ∧ panic.isRelease = false ∧
      failure = .error (.kernelFault block panic.report)

/-- What a block leaves that ends well or stops with a panic. -/
theorem runBlock_leaves {block : Nat} (hblock : block < geometry.blocks) {store : Store α}
    (h : plan.Ready block store)
    (hends : Block.EndWell geometry.threads (plan.stops block) ∨
      Block.Breaks geometry.threads (plan.stops block)) :
    runBlock kernel geometry block store =
        (.ok (), store.after kernel.callbacks.element (plan.requests block)) ∨
      ∃ failure after, runBlock kernel geometry block store = (.error failure, after) ∧
        after.output = (store.after kernel.callbacks.element (plan.requests block)).output ∧
        plan.Reports failure := by
  rcases hends with hwell | hbreaks
  · exact .inl (plan.runBlock_eq hblock h hwell)
  · obtain ⟨slots, hrun⟩ := plan.run_eq hblock h
    rcases Block.verdict_of_breaks hbreaks with hverdict | ⟨lane, hlane, panic, hpanic, hrelease, hverdict⟩
    · rw [hverdict] at hrun
      exact .inl (by simp only [runBlock_def, plan.slots_eq, hrun])
    · rw [hverdict] at hrun
      simp only [runBlock_def, plan.slots_eq, hrun]
      exact .inr ⟨_, _, rfl, rfl, block, hblock, lane, hlane, panic, hpanic, hrelease, rfl⟩

/-- What blocks leave, each of which ends well or stops with a panic. -/
theorem runBlocks_leaves {order : List Nat} (hnodup : order.Nodup)
    (hlt : ∀ block ∈ order, block < geometry.blocks) {store : Store α}
    (h : ∀ block ∈ order, plan.Ready block store)
    (hends : ∀ block ∈ order, Block.EndWell geometry.threads (plan.stops block) ∨
      Block.Breaks geometry.threads (plan.stops block)) :
    (∃ requests, (∀ request ∈ requests, ∃ block ∈ order, request ∈ plan.requests block) ∧
      (runBlocks kernel geometry order store).2.output =
        (store.after kernel.callbacks.element requests).output) ∧
    ∀ failure, (runBlocks kernel geometry order store).1 = .error failure → plan.Reports failure := by
  induction order generalizing store with
  | nil => exact ⟨⟨[], by simp, rfl⟩, fun _ hfailure => by cases hfailure⟩
  | cons block rest ih =>
    have hmem : block ∈ block :: rest := List.mem_cons_self
    rcases plan.runBlock_leaves (hlt block hmem) (h block hmem) (hends block hmem) with
      hrun | ⟨failure, after, hrun, houtput, hreports⟩
    · obtain ⟨⟨requests, hrequests, houtput⟩, hfails⟩ := ih (List.nodup_cons.mp hnodup).2
        (fun other hother => hlt other (List.mem_cons_of_mem _ hother))
        (plan.ready_rest hnodup hlt h)
        (fun other hother => hends other (List.mem_cons_of_mem _ hother))
      rw [runBlocks_cons, hrun]
      refine ⟨⟨plan.requests block ++ requests, fun request hr => ?_, ?_⟩, hfails⟩
      · rcases List.mem_append.mp hr with hr | hr
        · exact ⟨block, hmem, hr⟩
        · obtain ⟨other, hother, hr⟩ := hrequests request hr
          exact ⟨other, List.mem_cons_of_mem _ hother, hr⟩
      · rw [Store.after_append]
        exact houtput
    · rw [runBlocks_cons, hrun]
      refine ⟨⟨plan.requests block, fun request hr => ⟨block, hmem, hr⟩, houtput⟩, ?_⟩
      intro failure' hfailure
      cases hfailure
      exact hreports

variable {config : LaunchConfig} {blocks : Nat} {store : Store α} {order : Nat → List Nat}

/-- **What a launch leaves** each of whose blocks ends well or stops with a panic: what some of the planned
requests leave; and if it fails, it reports the panic of a lane. -/
theorem launchInOrder_leaves (plan : Plan kernel (config.geometry blocks) calls)
    (hvalid : config.validate = .ok ()) (hblocks : 0 < blocks)
    (horder : (order blocks).Perm (List.range blocks)) (hcalls : store.journal.calls = calls)
    (hends : ∀ block < blocks, Block.EndWell config.width (plan.stops block) ∨
      Block.Breaks config.width (plan.stops block)) :
    (∃ requests, (∀ request ∈ requests, ∃ block < blocks, request ∈ plan.requests block) ∧
      (launchInOrder order config kernel blocks config.width store).2.output =
        ((store.launched config blocks).after kernel.callbacks.element requests).output) ∧
    ∀ failure, (launchInOrder order config kernel blocks config.width store).1 = .error failure →
      plan.Reports failure := by
  have hstore : (store.launched config blocks).journal.calls = calls := hcalls
  have hlt : ∀ block ∈ order blocks, block < blocks :=
    fun block hblock => List.mem_range.mp (horder.mem_iff.mp hblock)
  rw [launchInOrder_eq_runBlocks kernel order hvalid hblocks]
  obtain ⟨⟨requests, hrequests, houtput⟩, hfails⟩ :=
    plan.runBlocks_leaves (horder.nodup_iff.mpr List.nodup_range) hlt
      (fun block _ => plan.ready_of_calls hstore block) fun block hblock => hends block (hlt block hblock)
  refine ⟨⟨requests, fun request hr => ?_, houtput⟩, hfails⟩
  obtain ⟨block, hblock, hr⟩ := hrequests request hr
  exact ⟨block, hlt block hblock, hr⟩

end Plan

end BlockMachine
