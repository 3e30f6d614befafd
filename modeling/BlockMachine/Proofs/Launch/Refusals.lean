import BlockMachine.Proofs.Launch.Stricter

/-!
# Launches with refusals

Some requests panic whatever is to be seen, and all others are answered as with other code.  Then it can be
told exactly what a block does: all its stages up to the first with such a request, and in that stage each lane
its requests up to its own first such request.

* `Callbacks.Refuses` — code that refuses some requests.
* `Lane.segment_refuses` — a lane stops at its first refusal.
* `Block.BrokenOff` — what a block does, and how its lanes stop; `Block.Runs.exists_brokenOff`.
* `Plan.exists_brokenOff` — a whole launch.
-/

set_option autoImplicit false

namespace BlockMachine

variable {σ α β : Type} {strict lenient : Callbacks σ α} {refusal : Request σ α → Option Panic} {lanes : Nat}

/-- Code that refuses some of the requests with a panic, and answers the others as the other code does. -/
structure Callbacks.Refuses (strict lenient : Callbacks σ α) (refusal : Request σ α → Option Panic) : Prop where
  alike : ∀ request sight, refusal request = none →
    request.answer strict sight = request.answer lenient sight
  refused : ∀ request sight panic, refusal request = some panic → request.answer strict sight = .error panic
  counts : ∀ index, strict.Counts index → lenient.Counts index

theorem Callbacks.Refuses.stricter (h : strict.Refuses lenient refusal) : strict.Stricter lenient := by
  refine ⟨fun request sight => ?_, h.counts⟩
  cases hrefusal : refusal request with
  | none => exact .inl (h.alike request sight hrefusal)
  | some panic => exact .inr ⟨panic, h.refused request sight panic hrefusal⟩

/-- What is refused by one kind of code or by another one. -/
theorem Callbacks.Refuses.trans {middle : Callbacks σ α} {other : Request σ α → Option Panic}
    (h : strict.Refuses middle refusal) (h' : middle.Refuses lenient other) :
    strict.Refuses lenient fun request => (refusal request).or (other request) := by
  refine ⟨fun request sight hnone => ?_, fun request sight panic hpanic => ?_,
    fun index hcounts => h'.counts index (h.counts index hcounts)⟩
  · obtain ⟨hfirst, hsecond⟩ := Option.or_eq_none_iff.mp hnone
    rw [h.alike request sight hfirst, h'.alike request sight hsecond]
  · cases hfirst : refusal request with
    | some first =>
      rw [hfirst, Option.some_or] at hpanic
      exact h.refused request sight panic (hfirst.trans hpanic)
    | none =>
      rw [hfirst, Option.none_or] at hpanic
      rw [h.alike request sight hfirst]
      exact h'.refused request sight panic hpanic

/-! ## Lanes -/

/-- The requests of a lane up to the first that is refused. -/
def Request.upTo (refusal : Request σ α → Option Panic) : List (Request σ α) → List (Request σ α)
  | [] => []
  | request :: rest => request :: if (refusal request).isSome then [] else upTo refusal rest

namespace Request

theorem upTo_subset (refusal : Request σ α → Option Panic) (requests : List (Request σ α)) :
    upTo refusal requests ⊆ requests := by
  induction requests with
  | nil => exact List.Subset.refl _
  | cons request rest ih =>
    rw [upTo]
    split
    · exact List.cons_subset_cons _ (List.nil_subset _)
    · exact List.cons_subset_cons _ ih

/-- Requests before which none is refused. -/
theorem upTo_append {early : List (Request σ α)} (h : ∀ request ∈ early, refusal request = none)
    (late : List (Request σ α)) : upTo refusal (early ++ late) = early ++ upTo refusal late := by
  induction early with
  | nil => rfl
  | cons request rest ih =>
    rw [List.cons_append, upTo, h request List.mem_cons_self, Option.isSome_none, if_neg Bool.false_ne_true,
      ih fun other hother => h other (List.mem_cons_of_mem _ hother)]
    rfl

theorem upTo_eq {requests : List (Request σ α)} (h : ∀ request ∈ requests, refusal request = none) :
    upTo refusal requests = requests := by
  have hall := upTo_append h []
  rwa [List.append_nil, upTo, List.append_nil] at hall

end Request

/-- **A lane stops at its first refusal**, and does the same as with the other code up to it. -/
theorem Lane.segment_refuses (hrefuses : strict.Refuses lenient refusal) {program : Lane σ α β}
    {sight : Sight σ} {requests : List (Request σ α)} {stop : Stop σ α β}
    (h : program.segment lenient sight = (requests, stop)) :
    program.segment strict sight =
      (Request.upTo refusal requests, (requests.findSome? refusal).elim stop .faulted) := by
  induction program generalizing sight requests with
  | done _ => cases h; rfl
  | fault _ => cases h; rfl
  | barrier _ _ => cases h; rfl
  | ask request next ih =>
    -- the first request is the same with both kinds of code
    obtain ⟨rest, rfl⟩ : ∃ rest, requests = request :: rest := by
      cases hanswer : request.answer lenient sight with
      | error panic =>
        rw [segment_ask_error hanswer] at h
        exact ⟨[], (Prod.mk.inj h).1.symm⟩
      | ok answer =>
        rw [segment_ask_ok hanswer] at h
        exact ⟨_, (Prod.mk.inj h).1.symm⟩
    cases hrefusal : refusal request with
    | some panic =>
      rw [segment_ask_error (hrefuses.refused request sight panic hrefusal), Request.upTo, hrefusal,
        List.findSome?_cons_of_isSome (by rw [hrefusal]; rfl), hrefusal]
      rfl
    | none =>
      rw [Request.upTo, hrefusal, List.findSome?_cons_of_isNone (by rw [hrefusal]; rfl), Option.isSome_none,
        if_neg Bool.false_ne_true]
      have hsame := hrefuses.alike request sight hrefusal
      cases hanswer : request.answer lenient sight with
      | error panic =>
        rw [segment_ask_error hanswer] at h
        cases h
        rw [segment_ask_error (hsame.trans hanswer)]
        rfl
      | ok answer =>
        rw [segment_ask_ok hanswer] at h
        obtain ⟨hrest, hstop⟩ := Prod.mk.inj h
        rw [segment_ask_ok (hsame.trans hanswer)]
        rw [ih answer (Prod.ext (List.cons.inj hrest).2 hstop)]

/-! ## Blocks -/

namespace Stage

/-- No request of a stage is refused. -/
def Answered (refusal : Request σ α → Option Panic) (lanes : Nat) (stage : Stage σ α) : Prop :=
  ∀ lane < lanes, ∀ request ∈ stage lane, refusal request = none

/-- A stage in which each lane goes up to its first refusal. -/
def upTo (refusal : Request σ α → Option Panic) (stage : Stage σ α) : Stage σ α :=
  fun lane => Request.upTo refusal (stage lane)

theorem mem_of_mem_upTo {stage : Stage σ α} {request : Request σ α}
    (h : request ∈ (stage.upTo refusal).all lanes) : request ∈ stage.all lanes := by
  obtain ⟨lane, hlane, hr⟩ := mem_all.mp h
  exact mem_all.mpr ⟨lane, hlane, Request.upTo_subset refusal _ hr⟩

theorem Apart.upTo {stage : Stage σ α} (hstrict : strict.Stricter lenient)
    (h : stage.Apart lenient lanes) : (stage.upTo refusal).Apart strict lanes :=
  fun i hi j hj hne request hr other hother hclash =>
    h i hi j hj hne request (Request.upTo_subset refusal _ hr) other
      (Request.upTo_subset refusal _ hother) (hstrict.clashes hclash)

theorem Answered.findSome? {stage : Stage σ α} (h : stage.Answered refusal lanes) {lane : Nat}
    (hlane : lane < lanes) : (stage lane).findSome? refusal = none :=
  List.findSome?_eq_none_iff.mpr (h lane hlane)

/-- A refusal stops its lane. -/
theorem exists_findSome? {stage : Stage σ α} (h : ¬ stage.Answered refusal lanes) :
    ∃ lane < lanes, ∃ panic, (stage lane).findSome? refusal = some panic := by
  simp only [Answered, not_forall] at h
  obtain ⟨lane, hlane, request, hr, hrefusal⟩ := h
  refine ⟨lane, hlane, Option.isSome_iff_exists.mp (List.findSome?_isSome_iff.mpr ⟨request, hr, ?_⟩)⟩
  exact Option.isSome_iff_ne_none.mpr hrefusal

end Stage

namespace Block

/-- What a block does some of whose requests are refused, if it would go through certain stages and come to
its normal end. -/
inductive BrokenOff (refusal : Request σ α → Option Panic) (lanes : Nat) (stages : List (Stage σ α)) :
    List (Stage σ α) → (Nat → Stop σ α β) → Prop
  /-- Nothing is refused. -/
  | whole {stops : Nat → Stop σ α β} (answered : ∀ stage ∈ stages, stage.Answered refusal lanes)
      (ends : EndWell lanes stops) : BrokenOff refusal lanes stages stages stops
  /-- It does not come past the first stage with a refusal. -/
  | off {past future : List (Stage σ α)} {stage : Stage σ α} {stops : Nat → Stop σ α β}
      (parts : stages = past ++ stage :: future) (answered : ∀ early ∈ past, early.Answered refusal lanes)
      (refused : ¬ stage.Answered refusal lanes)
      (faulted : ∀ lane < lanes, ∀ panic,
        stops lane = .faulted panic ↔ (stage lane).findSome? refusal = some panic) :
      BrokenOff refusal lanes stages (past ++ [stage.upTo refusal]) stops

/-- It makes no other requests. -/
theorem BrokenOff.subset {stages broken : List (Stage σ α)} {stops : Nat → Stop σ α β}
    (h : BrokenOff refusal lanes stages broken stops) :
    (broken.flatMap fun stage => stage.all lanes) ⊆ stages.flatMap fun stage => stage.all lanes := by
  cases h with
  | whole _ _ => exact List.Subset.refl _
  | @off past future stage _ parts _ _ _ =>
    subst parts
    rw [List.flatMap_append, List.flatMap_append, List.flatMap_singleton, List.flatMap_cons]
    refine List.append_subset.mpr ⟨List.subset_append_left _ _, fun request hr => ?_⟩
    exact List.mem_append_right _ (List.mem_append_left _ (Stage.mem_of_mem_upTo hr))

/-- It comes to its normal end, or some lane stops with a panic. -/
theorem BrokenOff.ends {stages broken : List (Stage σ α)} {stops : Nat → Stop σ α β}
    (h : BrokenOff refusal lanes stages broken stops) : EndWell lanes stops ∨ Breaks lanes stops := by
  cases h with
  | whole _ ends => exact .inl ends
  | off _ _ refused faulted =>
    obtain ⟨lane, hlane, panic, hpanic⟩ := Stage.exists_findSome? refused
    exact .inr ⟨lane, hlane, panic, (faulted lane hlane panic).mpr hpanic⟩

/-- If no lane stops with a panic then nothing is refused. -/
theorem BrokenOff.of_not_breaks {stages broken : List (Stage σ α)} {stops : Nat → Stop σ α β}
    (h : BrokenOff refusal lanes stages broken stops) (hnot : ¬ Breaks lanes stops) :
    broken = stages ∧ (∀ stage ∈ stages, stage.Answered refusal lanes) ∧ EndWell lanes stops := by
  cases h with
  | whole answered ends => exact ⟨rfl, answered, ends⟩
  | off _ _ refused faulted =>
    obtain ⟨lane, hlane, panic, hpanic⟩ := Stage.exists_findSome? refused
    exact absurd ⟨lane, hlane, panic, (faulted lane hlane panic).mpr hpanic⟩ hnot

/-- Only refusals stop its lanes. -/
theorem BrokenOff.refused {stages broken : List (Stage σ α)} {stops : Nat → Stop σ α β}
    (h : BrokenOff refusal lanes stages broken stops) {lane : Nat} (hlane : lane < lanes) {panic : Panic}
    (hpanic : stops lane = .faulted panic) :
    ∃ request ∈ stages.flatMap fun stage => stage.all lanes, refusal request = some panic := by
  cases h with
  | whole _ ends =>
    obtain ⟨result, hresult⟩ := ends lane hlane
    rw [hpanic] at hresult
    cases hresult
  | @off past future stage _ parts _ _ faulted =>
    obtain ⟨request, hr, hrefusal⟩ := List.exists_of_findSome?_eq_some ((faulted lane hlane panic).mp hpanic)
    refine ⟨request, List.mem_flatMap.mpr ⟨stage, ?_, Stage.mem_all.mpr ⟨lane, hlane, hr⟩⟩, hrefusal⟩
    rw [parts]
    exact List.mem_append_right _ List.mem_cons_self

variable (hrefuses : strict.Refuses lenient refusal)

include hrefuses

/-- A stage without a refusal is as with the other code. -/
theorem segment_of_answered {programs : Nat → Lane σ α β} {sight : Sight σ} {stage : Stage σ α}
    {stops : Nat → Stop σ α β} (hanswered : stage.Answered refusal lanes)
    (segment : ∀ lane < lanes, (programs lane).segment lenient sight = (stage lane, stops lane)) :
    ∀ lane < lanes, (programs lane).segment strict sight = (stage lane, stops lane) := by
  intro lane hlane
  rw [Lane.segment_refuses hrefuses (segment lane hlane), Request.upTo_eq (hanswered lane hlane),
    hanswered.findSome? hlane]
  rfl

/-- A block comes to its end in a stage with a refusal. -/
theorem exists_brokenOff_of_refused {programs : Nat → Lane σ α β} {sight : Sight σ} {stage : Stage σ α}
    {usual : Nat → Stop σ α β} (hrefused : ¬ stage.Answered refusal lanes)
    (segment : ∀ lane < lanes, (programs lane).segment lenient sight = (stage lane, usual lane))
    (apart : stage.Apart lenient lanes) (husual : ∀ lane < lanes, ∀ panic, usual lane ≠ .faulted panic)
    (future : List (Stage σ α)) :
    ∃ broken stops, Runs strict lanes programs sight broken stops ∧
      BrokenOff refusal lanes (stage :: future) broken stops := by
  let stops : Nat → Stop σ α β := fun lane => ((stage lane).findSome? refusal).elim (usual lane) .faulted
  have hsegment : ∀ lane < lanes, (programs lane).segment strict sight =
      (stage.upTo refusal lane, stops lane) :=
    fun lane hlane => Lane.segment_refuses hrefuses (segment lane hlane)
  obtain ⟨first, hfirst, panic, hpanic⟩ := Stage.exists_findSome? hrefused
  refine ⟨[] ++ [stage.upTo refusal], stops, .stop hsegment (apart.upTo hrefuses.stricter)
    ⟨first, hfirst, ?_⟩, .off rfl (fun _ h => absurd h List.not_mem_nil) hrefused
    fun lane hlane panic => ?_⟩
  · show (((stage first).findSome? refusal).elim (usual first) Stop.faulted).next? = none
    rw [hpanic]
    rfl
  · show ((stage lane).findSome? refusal).elim (usual lane) Stop.faulted = .faulted panic ↔ _
    cases (stage lane).findSome? refusal with
    | none => exact ⟨fun h => absurd h (husual lane hlane panic), nofun⟩
    | some other => exact ⟨fun h => congrArg some (Stop.faulted.inj h), fun h => congrArg _ (Option.some.inj h)⟩

/-- **A block goes through its stages up to the first with a refusal.** -/
theorem Runs.exists_brokenOff {programs : Nat → Lane σ α β} {sight : Sight σ} {stages : List (Stage σ α)}
    {stops : Nat → Stop σ α β} (h : Runs lenient lanes programs sight stages stops)
    (hends : EndWell lanes stops) :
    ∃ broken stops', Runs strict lanes programs sight broken stops' ∧
      BrokenOff refusal lanes stages broken stops' := by
  induction h with
  | @stop programs sight stage stops segment apart halts =>
    by_cases hanswered : stage.Answered refusal lanes
    · refine ⟨[stage], stops, .stop (segment_of_answered hrefuses hanswered segment) ?_ halts,
        .whole (fun other hother => ?_) hends⟩
      · exact fun i hi j hj hne request hr other hother hclash =>
          apart i hi j hj hne request hr other hother (hrefuses.stricter.clashes hclash)
      · rw [List.mem_singleton.mp hother]
        exact hanswered
    · refine exists_brokenOff_of_refused hrefuses hanswered segment apart (fun lane hlane panic hpanic => ?_) []
      obtain ⟨result, hresult⟩ := hends lane hlane
      rw [hpanic] at hresult
      cases hresult
  | @pass programs next sight stage stages stops segment apart later ih =>
    by_cases hanswered : stage.Answered refusal lanes
    · obtain ⟨broken, stops', hruns, hbroken⟩ := ih hends
      refine ⟨stage :: broken, stops', .pass (segment_of_answered hrefuses hanswered segment) ?_ hruns, ?_⟩
      · exact fun i hi j hj hne request hr other hother hclash =>
          apart i hi j hj hne request hr other hother (hrefuses.stricter.clashes hclash)
      · cases hbroken with
        | whole answered ends => exact .whole (List.forall_mem_cons.mpr ⟨hanswered, answered⟩) ends
        | @off past future broken _ parts answered refused faulted =>
          show BrokenOff refusal lanes _ ((stage :: past) ++ [broken.upTo refusal]) _
          exact .off (congrArg (stage :: ·) parts)
            (List.forall_mem_cons.mpr ⟨hanswered, answered⟩) refused faulted
    · exact exists_brokenOff_of_refused hrefuses hanswered segment apart (fun _ _ _ => nofun) stages

end Block

/-! ## Launches -/

/-- **A launch that would end well** has a plan also if some requests are refused. -/
theorem Plan.exists_brokenOff {kernel : Kernel σ α} {geometry : Geometry} {calls : Array Nat}
    (plan : Plan kernel geometry calls) (hrefuses : strict.Refuses kernel.callbacks refusal)
    (hends : ∀ block < geometry.blocks, Block.EndWell geometry.threads (plan.stops block)) :
    ∃ plan' : Plan { kernel with callbacks := strict } geometry calls, ∀ block < geometry.blocks,
      Block.BrokenOff refusal geometry.threads (plan.stages block) (plan'.stages block)
        (plan'.stops block) := by
  refine plan.exists_of_subset hrefuses.counts _ fun block hblock => ?_
  obtain ⟨stages, stops, hruns, hbroken⟩ :=
    (plan.runs block hblock).exists_brokenOff hrefuses (hends block hblock)
  exact ⟨stages, stops, hruns, hbroken.subset, hbroken⟩

end BlockMachine
