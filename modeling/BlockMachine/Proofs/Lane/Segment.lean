import BlockMachine.Proofs.Lane.Sight

/-!
# Segments of a lane

A segment is what a lane does between two barriers.  `Lane.segment` lists its requests as if the lane
were alone, and tells where it stops.

* `Lane.segment_congr` — a segment hangs only on what its own requests see.
* `Lane.advance_eq` — running a lane to its stop performs exactly the requests of its segment.
* `Lane.Asks` — a lane makes some requests and goes on with a rest; it composes along `>>=`.
* `Lane.AsksUnless` — the same for a lane that has a fault instead if it is blocked.
-/

set_option autoImplicit false

namespace BlockMachine

namespace Lane

variable {σ α β γ : Type}

/-- The requests of a lane up to its stop, and the stop; a request that panics is the last one. -/
def segment (callbacks : Callbacks σ α) :
    Lane σ α β → Sight σ → List (Request σ α) × Stop σ α β
  | done result, _ => ([], .finished result)
  | fault panic, _ => ([], .faulted panic)
  | barrier next, _ => ([], .waiting next)
  | ask request next, sight =>
    match request.answer callbacks sight with
    | .ok answer =>
      let (requests, stop) := segment callbacks (next answer) (request.see sight)
      (request :: requests, stop)
    | .error panic => ([request], .faulted panic)

variable {callbacks : Callbacks σ α}

@[simp] theorem segment_done (result : β) (sight : Sight σ) :
    (done result : Lane σ α β).segment callbacks sight = ([], .finished result) := rfl

@[simp] theorem segment_fault (panic : Panic) (sight : Sight σ) :
    (fault panic : Lane σ α β).segment callbacks sight = ([], .faulted panic) := rfl

@[simp] theorem segment_barrier (next : Lane σ α β) (sight : Sight σ) :
    (barrier next).segment callbacks sight = ([], .waiting next) := rfl

theorem segment_ask_ok {request : Request σ α} {next : request.Answer → Lane σ α β}
    {sight : Sight σ} {answer : request.Answer} (h : request.answer callbacks sight = .ok answer) :
    (ask request next).segment callbacks sight =
      (request :: ((next answer).segment callbacks (request.see sight)).1,
        ((next answer).segment callbacks (request.see sight)).2) := by
  simp only [segment, h]

theorem segment_ask_error {request : Request σ α} {next : request.Answer → Lane σ α β}
    {sight : Sight σ} {panic : Panic} (h : request.answer callbacks sight = .error panic) :
    (ask request next).segment callbacks sight = ([request], .faulted panic) := by
  simp only [segment, h]

/-- **A segment hangs only on what its own requests see.** -/
theorem segment_congr {program : Lane σ α β} {a b : Sight σ}
    (h : ∀ request ∈ (program.segment callbacks a).1, Sight.AgreeAt callbacks request a b) :
    program.segment callbacks b = program.segment callbacks a := by
  induction program generalizing a b with
  | done _ => rfl
  | fault _ => rfl
  | barrier _ _ => rfl
  | ask request next ih =>
    cases ha : request.answer callbacks a with
    | error panic =>
      rw [segment_ask_error ha] at h ⊢
      have hb := Request.answer_congr (h request List.mem_cons_self)
      rw [segment_ask_error (hb ▸ ha)]
    | ok answer =>
      rw [segment_ask_ok ha] at h ⊢
      have hb := Request.answer_congr (h request List.mem_cons_self)
      rw [segment_ask_ok (hb ▸ ha)]
      have hrest := ih answer (a := request.see a) (b := request.see b) fun other hother =>
        (h other (List.mem_cons_of_mem _ hother)).see request
      rw [hrest]

/-- **A lane that runs to its stop performs the requests of its segment.** -/
theorem advance_eq (program : Lane σ α β) (machine : Machine σ α) :
    program.advance callbacks machine =
      ((program.segment callbacks machine.sight).2,
        ⟨(machine.sight.after (program.segment callbacks machine.sight).1).slots,
          machine.store.after callbacks.element (program.segment callbacks machine.sight).1⟩) := by
  unfold advance
  induction program generalizing machine with
  | done _ => rfl
  | fault _ => rfl
  | barrier _ _ => rfl
  | ask request next ih =>
    simp only [drive]
    rw [Machine.perform_eq]
    have hsight : (⟨(request.see machine.sight).slots,
        request.leave callbacks.element machine.store⟩ : Machine σ α).sight =
          request.see machine.sight := by
      simp only [Machine.sight]
      rw [Request.calls_leave callbacks.element request machine.slots machine.store]
    cases ha : request.answer callbacks machine.sight with
    | error panic =>
      rw [segment_ask_error ha]
      simp only [Sight.after_cons, Sight.after_nil, Store.after_cons, Store.after_nil]
    | ok answer =>
      rw [segment_ask_ok ha]
      simp only [Sight.after_cons, Store.after_cons]
      rw [ih, hsight]

/-! ## Requests on the way through a program -/

/-- A lane makes some requests, all of them answered, and goes on with a rest. -/
inductive Asks (callbacks : Callbacks σ α) :
    Lane σ α β → Sight σ → List (Request σ α) → Lane σ α β → Prop
  | none (program : Lane σ α β) (sight : Sight σ) : Asks callbacks program sight [] program
  | one {request : Request σ α} {next : request.Answer → Lane σ α β} {sight : Sight σ}
      {answer : request.Answer} {requests : List (Request σ α)} {rest : Lane σ α β}
      (h : request.answer callbacks sight = .ok answer)
      (later : Asks callbacks (next answer) (request.see sight) requests rest) :
      Asks callbacks (ask request next) sight (request :: requests) rest

theorem Asks.bind {program rest : Lane σ α β} {sight : Sight σ} {requests : List (Request σ α)}
    (h : Asks callbacks program sight requests rest) (f : β → Lane σ α γ) :
    Asks callbacks (program >>= f) sight requests (rest >>= f) := by
  induction h with
  | none _ _ => exact .none ..
  | one h _ ih => exact .one h ih

theorem Asks.trans {first second third : Lane σ α β} {sight : Sight σ}
    {requests later : List (Request σ α)} (h : Asks callbacks first sight requests second)
    (h' : Asks callbacks second (sight.after requests) later third) :
    Asks callbacks first sight (requests ++ later) third := by
  induction h with
  | none _ _ => exact h'
  | one h _ ih => exact .one h (ih h')

/-- One program to its end, and then the requests of another one. -/
theorem Asks.seq {program : Lane σ α β} {sight : Sight σ} {requests later : List (Request σ α)}
    {result : β} {f : β → Lane σ α γ} {rest : Lane σ α γ}
    (h : Asks callbacks program sight requests (done result))
    (h' : Asks callbacks (f result) (sight.after requests) later rest) :
    Asks callbacks (program >>= f) sight (requests ++ later) rest :=
  (h.bind f).trans h'

/-- The segment of a program that makes some requests goes on with that of the rest. -/
theorem Asks.segment {program rest : Lane σ α β} {sight : Sight σ} {requests : List (Request σ α)}
    (h : Asks callbacks program sight requests rest) :
    program.segment callbacks sight =
      (requests ++ (rest.segment callbacks (sight.after requests)).1,
        (rest.segment callbacks (sight.after requests)).2) := by
  induction h with
  | none _ _ => rfl
  | one h _ ih => rw [segment_ask_ok h, ih]; rfl

theorem Asks.segment_waiting {program next : Lane σ α β} {sight : Sight σ}
    {requests : List (Request σ α)} (h : Asks callbacks program sight requests (barrier next)) :
    program.segment callbacks sight = (requests, .waiting next) := by
  rw [h.segment, segment_barrier, List.append_nil]

theorem Asks.segment_faulted {program : Lane σ α β} {panic : Panic} {sight : Sight σ}
    {requests : List (Request σ α)} (h : Asks callbacks program sight requests (fault panic)) :
    program.segment callbacks sight = (requests, .faulted panic) := by
  rw [h.segment, segment_fault, List.append_nil]

theorem asks_ofExcept {result : Except Panic β} {value : β} (h : result = .ok value)
    (sight : Sight σ) :
    Asks callbacks (.ofExcept result : Lane σ α β) sight [] (done value) := by
  rw [h]
  exact .none ..

/-- Work on each item of a list whose requests do not hang on the sight. -/
theorem asks_forEach {ι : Type} {items : List ι} {work : ι → Lane σ α Unit}
    {requests : ι → List (Request σ α)}
    (h : ∀ item ∈ items, ∀ sight, Asks callbacks (work item) sight (requests item) (done ()))
    (sight : Sight σ) :
    Asks callbacks (forEach items work) sight (items.flatMap requests) (done ()) := by
  induction items generalizing sight with
  | nil => exact .none ..
  | cons item rest ih =>
    rw [List.flatMap_cons]
    exact (h item List.mem_cons_self sight).seq
      (ih (fun other hother => h other (List.mem_cons_of_mem _ hother)) _)

/-- A lane makes some requests and goes on with a rest, unless it is blocked; then it has a fault in place of
the rest. -/
structure AsksUnless (callbacks : Callbacks σ α) (blocked : Prop) (program : Lane σ α β) (sight : Sight σ)
    (requests : List (Request σ α)) (rest : Lane σ α β) : Prop where
  free : ¬ blocked → Asks callbacks program sight requests rest
  faults : blocked → ∃ panic : Panic, panic.isRelease = false ∧
    Asks callbacks program sight requests (fault panic)

section Unless

variable {blocked : Prop} {program rest : Lane σ α β} {sight : Sight σ} {requests : List (Request σ α)}

theorem Asks.unless (h : Asks callbacks program sight requests rest) (hfree : ¬ blocked) :
    AsksUnless callbacks blocked program sight requests rest :=
  ⟨fun _ => h, fun hblocked => absurd hblocked hfree⟩

theorem Asks.unless_of_blocked {panic : Panic} (h : Asks callbacks program sight requests (fault panic))
    (hrelease : panic.isRelease = false) (hblocked : blocked) (rest : Lane σ α β) :
    AsksUnless callbacks blocked program sight requests rest :=
  ⟨fun hfree => absurd hblocked hfree, fun _ => ⟨panic, hrelease, h⟩⟩

theorem AsksUnless.bind (h : AsksUnless callbacks blocked program sight requests rest)
    (f : β → Lane σ α γ) :
    AsksUnless callbacks blocked (program >>= f) sight requests (rest >>= f) := by
  refine ⟨fun hfree => (h.free hfree).bind f, fun hblocked => ?_⟩
  obtain ⟨panic, hrelease, hasks⟩ := h.faults hblocked
  exact ⟨panic, hrelease, hasks.bind f⟩

/-- One program to its end, and then another one that makes no requests. -/
theorem AsksUnless.seq {result : β} {f : β → Lane σ α γ} {rest : Lane σ α γ}
    (h : AsksUnless callbacks blocked program sight requests (done result))
    (h' : Asks callbacks (f result) (sight.after requests) [] rest) :
    AsksUnless callbacks blocked (program >>= f) sight requests rest := by
  refine ⟨fun hfree => ?_, (h.bind f).faults⟩
  have hboth := (h.free hfree).seq h'
  rwa [List.append_nil] at hboth

/-- Some requests before. -/
theorem AsksUnless.after {first : Lane σ α β} {later : List (Request σ α)}
    (h : AsksUnless callbacks blocked program (sight.after requests) later rest)
    (before : Asks callbacks first sight requests program) :
    AsksUnless callbacks blocked first sight (requests ++ later) rest := by
  refine ⟨fun hfree => before.trans (h.free hfree), fun hblocked => ?_⟩
  obtain ⟨panic, hrelease, hasks⟩ := h.faults hblocked
  exact ⟨panic, hrelease, before.trans hasks⟩

/-- How the segment of such a lane ends, if the rest is where it stops. -/
theorem AsksUnless.exists_segment (h : AsksUnless callbacks blocked program sight requests rest)
    {stop : Stop σ α β} (hrest : ∀ sight, rest.segment callbacks sight = ([], stop)) :
    ∃ ending, program.segment callbacks sight = (requests, ending) ∧ (¬ blocked → ending = stop) ∧
      (blocked → ∃ panic, ending = .faulted panic ∧ panic.isRelease = false) := by
  by_cases hblocked : blocked
  · obtain ⟨panic, hrelease, hasks⟩ := h.faults hblocked
    exact ⟨_, hasks.segment_faulted, fun hfree => absurd hblocked hfree, fun _ => ⟨panic, rfl, hrelease⟩⟩
  · refine ⟨stop, ?_, fun _ => rfl, fun h => absurd h hblocked⟩
    rw [(h.free hblocked).segment, hrest, List.append_nil]

end Unless

end Lane

end BlockMachine
