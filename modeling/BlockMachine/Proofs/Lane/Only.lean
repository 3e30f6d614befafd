import BlockMachine.Proofs.Block.Stage

/-!
# Programs that keep to some requests

Whatever it is answered, a program often makes only certain requests.  This can be read off its text, and it
holds of all that the program does in a run.

* `Request.Below` — a request that asks for none but the first items.
* `Lane.Only` — a program that makes only certain requests, whatever it is answered.
* `Lane.Only.bind` — such programs are put together from such programs.
* `Lane.Only.segment`, `Lane.Only.advance` — what a lane has left to do when it stops is such a program again.
* `Block.Runs.only` — so are the requests of a block whose lanes have such programs.
-/

set_option autoImplicit false

namespace BlockMachine

variable {σ α β γ : Type} {allowed wider : Request σ α → Prop} {callbacks : Callbacks σ α}

namespace Request

/-- A request that asks for none but the first items. -/
def Below (total : Nat) (request : Request σ α) : Prop :=
  ∀ index, request.item? = some index → index < total

theorem below_fetch {total index : Nat} (h : index < total) :
    (fetch index : Request σ α).Below total := by
  rintro other hother
  obtain rfl := Option.some.inj hother
  exact h

/-- A request that asks for no item. -/
theorem below_of_no_item {total : Nat} {request : Request σ α} (h : request.item? = none) :
    request.Below total := by
  intro index hindex
  rw [h] at hindex
  cases hindex

end Request

namespace Lane

/-- A program that makes only certain requests, whatever it is answered. -/
def Only (allowed : Request σ α → Prop) : Lane σ α β → Prop
  | done _ => True
  | fault _ => True
  | barrier next => next.Only allowed
  | ask request next => allowed request ∧ ∀ answer, (next answer).Only allowed

theorem Only.imp (h : ∀ request, allowed request → wider request) {program : Lane σ α β}
    (honly : program.Only allowed) : program.Only wider := by
  induction program with
  | done _ => trivial
  | fault _ => trivial
  | barrier next ih => exact ih honly
  | ask request next ih => exact ⟨h request honly.1, fun answer => ih answer (honly.2 answer)⟩

theorem Only.bind {program : Lane σ α β} {rest : β → Lane σ α γ} (h : program.Only allowed)
    (hrest : ∀ result, (rest result).Only allowed) : (program >>= rest).Only allowed := by
  induction program with
  | done result => exact hrest result
  | fault _ => trivial
  | barrier next ih => exact ih h
  | ask request next ih => exact ⟨h.1, fun answer => ih answer (h.2 answer)⟩

theorem only_ofExcept (value : Except Panic β) : (ofExcept value : Lane σ α β).Only allowed := by
  cases value <;> trivial

theorem only_ofExcept_bind {value : Except Panic β} {rest : β → Lane σ α γ}
    (hrest : ∀ result, value = .ok result → (rest result).Only allowed) :
    (ofExcept value >>= rest).Only allowed := by
  cases value with
  | ok result => exact hrest result rfl
  | error _ => trivial

theorem only_ite {condition : Prop} [Decidable condition] {program other : Lane σ α β}
    (h : condition → program.Only allowed) (hother : ¬ condition → other.Only allowed) :
    (if condition then program else other).Only allowed := by
  split
  · next hcondition => exact h hcondition
  · next hcondition => exact hother hcondition

theorem only_forEach {ι : Type} {work : ι → Lane σ α Unit} (list : List ι)
    (h : ∀ item ∈ list, (work item).Only allowed) : (forEach list work).Only allowed := by
  induction list with
  | nil => trivial
  | cons item rest ih =>
    exact (h item List.mem_cons_self).bind fun _ =>
      ih fun other hother => h other (List.mem_cons_of_mem _ hother)

end Lane

/-- A lane that has stopped, and makes only certain requests from then on. -/
def Stop.Only (allowed : Request σ α → Prop) : Stop σ α β → Prop
  | finished _ => True
  | faulted _ => True
  | waiting next => next.Only allowed

namespace Lane

/-- A lane makes such requests up to its stop, and from then on. -/
theorem Only.segment {program : Lane σ α β} (h : program.Only allowed) {sight : Sight σ}
    {requests : List (Request σ α)} {stop : Stop σ α β}
    (hsegment : program.segment callbacks sight = (requests, stop)) :
    (∀ request ∈ requests, allowed request) ∧ stop.Only allowed := by
  induction program generalizing sight requests with
  | done _ =>
    obtain ⟨rfl, rfl⟩ := Prod.mk.inj hsegment
    exact ⟨fun _ hr => absurd hr List.not_mem_nil, trivial⟩
  | fault _ =>
    obtain ⟨rfl, rfl⟩ := Prod.mk.inj hsegment
    exact ⟨fun _ hr => absurd hr List.not_mem_nil, trivial⟩
  | barrier next _ =>
    obtain ⟨rfl, rfl⟩ := Prod.mk.inj hsegment
    exact ⟨fun _ hr => absurd hr List.not_mem_nil, h⟩
  | ask request next ih =>
    cases hanswer : request.answer callbacks sight with
    | ok answer =>
      rw [segment_ask_ok hanswer] at hsegment
      obtain ⟨rfl, hrest⟩ := Prod.mk.inj hsegment
      obtain ⟨hrequests, hstop⟩ := ih answer (h.2 answer) (Prod.ext rfl hrest)
      exact ⟨List.forall_mem_cons.mpr ⟨h.1, hrequests⟩, hstop⟩
    | error panic =>
      rw [segment_ask_error hanswer] at hsegment
      obtain ⟨rfl, rfl⟩ := Prod.mk.inj hsegment
      exact ⟨List.forall_mem_singleton.mpr h.1, trivial⟩

/-- The same of a lane that is run to its stop. -/
theorem Only.advance {program : Lane σ α β} (h : program.Only allowed) (machine : Machine σ α) :
    (program.advance callbacks machine).1.Only allowed := by
  rw [advance_eq]
  exact (h.segment rfl).2

end Lane

/-- **A block makes only such requests** if the programs of its lanes do. -/
theorem Block.Runs.only {lanes : Nat} {programs : Nat → Lane σ α β} {sight : Sight σ}
    {stages : List (Stage σ α)} {stops : Nat → Stop σ α β} (h : Runs callbacks lanes programs sight stages stops)
    (honly : ∀ lane < lanes, (programs lane).Only allowed) :
    ∀ stage ∈ stages, ∀ request ∈ stage.all lanes, allowed request := by
  induction h with
  | stop segment _ _ =>
    refine List.forall_mem_singleton.mpr fun request hr => ?_
    obtain ⟨lane, hlane, hr⟩ := Stage.mem_all.mp hr
    exact ((honly lane hlane).segment (segment lane hlane)).1 request hr
  | pass segment _ _ ih =>
    refine List.forall_mem_cons.mpr ⟨fun request hr => ?_, ih fun lane hlane => ?_⟩
    · obtain ⟨lane, hlane, hr⟩ := Stage.mem_all.mp hr
      exact ((honly lane hlane).segment (segment lane hlane)).1 request hr
    · exact ((honly lane hlane).segment (segment lane hlane)).2

end BlockMachine
