import BlockMachine.Lane.Machine

/-!
# What a request sees and what it leaves

The answer to a request hangs on little: on the slots of the block, and on how often an item was
asked for.  No answer hangs on the destination.

* `Sight` — what answers hang on; `Request.answer`, `Request.see`, `Request.leave` are the three
  effects of a request, and `Machine.perform_eq` says that there are no others.
* `Request.Clashes` — two requests of which one may change the answer to the other.
* `Request.answer_congr`, `AgreeAt.see`, `agreeAt_see_of_not_clashes` — a request is answered alike
  wherever it sees the same, and only requests that clash with it can change what it sees.
-/

set_option autoImplicit false

namespace BlockMachine

variable {σ α : Type}

/-- What the answers to requests hang on. -/
structure Sight (σ : Type) where
  slots : Array σ
  /-- How often each item of the view was asked for. -/
  calls : Array Nat

/-- What is to be seen of a machine. -/
def Machine.sight (machine : Machine σ α) : Sight σ := ⟨machine.slots, machine.store.journal.calls⟩

/-- Whether the answer for an item depends on how often it was asked for before. -/
def Callbacks.Counts (callbacks : Callbacks σ α) (index : Nat) : Prop :=
  ∃ earlier later, callbacks.fetch index earlier ≠ callbacks.fetch index later

theorem Callbacks.fetch_eq_of_not_counts {callbacks : Callbacks σ α} {index : Nat}
    (h : ¬ callbacks.Counts index) (earlier later : Nat) :
    callbacks.fetch index earlier = callbacks.fetch index later := by
  by_cases heq : callbacks.fetch index earlier = callbacks.fetch index later
  · exact heq
  · exact absurd ⟨earlier, later, heq⟩ h

namespace Request

/-- The answer to a request. -/
def answer (callbacks : Callbacks σ α) :
    (request : Request σ α) → Sight σ → Except Panic request.Answer
  | .load slot, sight =>
    match sight.slots[slot]? with
    | some value => .ok value
    | none => .error (.indexOutOfBounds sight.slots.size slot)
  | .store slot _, sight =>
    if slot < sight.slots.size then .ok () else .error (.indexOutOfBounds sight.slots.size slot)
  | .combine left right, _ => callbacks.combine left right
  | .fetch index, sight => callbacks.fetch index (sight.calls[index]?.getD 0)
  | .clone value, _ => callbacks.element.clone value
  | .write _ _, _ => .ok ()
  | .writeBytes _ _, _ => .ok ()
  | .note _, _ => .ok ()

/-- What is to be seen after a request. -/
def see : Request σ α → Sight σ → Sight σ
  | .store slot value, sight => ⟨sight.slots.setIfInBounds slot value, sight.calls⟩
  | .fetch index, sight => ⟨sight.slots, sight.calls.modify index (· + 1)⟩
  | _, sight => sight

/-- The store after a request. -/
def leave (element : Element α) : Request σ α → Store α → Store α
  | .fetch index, held => { held with journal := held.journal.countCall index }
  | .clone _, held => { held with journal := held.journal.countClone }
  | .write index value, held => { held with output := held.output.setIfInBounds index value }
  | .writeBytes position bytes, held =>
    { held with output := element.writeBytes held.output position bytes }
  | .note record, held => { held with journal := held.journal.note record }
  | _, held => held

/-- The slot that a request reads or writes. -/
def slot? : Request σ α → Option Nat
  | .load slot => some slot
  | .store slot _ => some slot
  | _ => none

/-- The slot that a request writes. -/
def stored? : Request σ α → Option Nat
  | .store slot _ => some slot
  | _ => none

theorem slot?_of_stored? {request : Request σ α} {slot : Nat} (h : request.stored? = some slot) :
    request.slot? = some slot := by
  cases request <;> first | exact h | cases h

theorem stored?_eq_none {request : Request σ α} (h : request.slot? = none) : request.stored? = none := by
  cases hstored : request.stored? with
  | none => rfl
  | some slot =>
    rw [slot?_of_stored? hstored] at h
    cases h

/-- The item of the view that a request asks for. -/
def item? : Request σ α → Option Nat
  | .fetch index => some index
  | _ => none

/-- The value that a request clones. -/
def cloned? : Request σ α → Option α
  | .clone value => some value
  | _ => none

/-- The record that a request logs. -/
def noted? : Request σ α → Option Record
  | .note record => some record
  | _ => none

/-- Whether a request keeps to the slots of its block. -/
def Local : Request σ α → Prop
  | .load _ | .store _ _ | .combine _ _ => True
  | _ => False

theorem Local.item?_eq {request : Request σ α} (h : request.Local) : request.item? = none := by
  cases request <;> first | rfl | exact absurd h id

theorem Local.cloned?_eq {request : Request σ α} (h : request.Local) : request.cloned? = none := by
  cases request <;> first | rfl | exact absurd h id

theorem Local.noted?_eq {request : Request σ α} (h : request.Local) : request.noted? = none := by
  cases request <;> first | rfl | exact absurd h id

theorem Local.leave_eq {request : Request σ α} (h : request.Local) (element : Element α)
    (held : Store α) : request.leave element held = held := by
  cases request <;> first | rfl | exact absurd h id

/-- Whether one of two requests may change the answer to the other: one writes a slot that the other
reads or writes, or both ask for an item whose answers are counted. -/
def Clashes (callbacks : Callbacks σ α) (request other : Request σ α) : Prop :=
  (∃ slot, request.stored? = some slot ∧ other.slot? = some slot) ∨
  (∃ slot, other.stored? = some slot ∧ request.slot? = some slot) ∨
  ∃ index, request.item? = some index ∧ other.item? = some index ∧ callbacks.Counts index

@[simp] theorem size_see (request : Request σ α) (sight : Sight σ) :
    (request.see sight).slots.size = sight.slots.size := by
  cases request <;> simp [see]

/-- What is left in the journal of calls is what is to be seen of them. -/
theorem calls_leave (element : Element α) (request : Request σ α) (slots : Array σ)
    (held : Store α) :
    (request.leave element held).journal.calls =
      (request.see ⟨slots, held.journal.calls⟩).calls := by
  cases request <;> rfl

end Request

/-- **A request has three effects**: its answer, what is to be seen after it and what it leaves. -/
theorem Machine.perform_eq (callbacks : Callbacks σ α) (request : Request σ α)
    (machine : Machine σ α) :
    machine.perform callbacks request =
      (request.answer callbacks machine.sight,
        ⟨(request.see machine.sight).slots, request.leave callbacks.element machine.store⟩) := by
  obtain ⟨slots, output, journal⟩ := machine
  cases request with
  | load slot =>
    simp only [Machine.perform, Request.answer, Request.see, Request.leave, Machine.sight]
    cases slots[slot]? <;> rfl
  | store slot value =>
    by_cases h : slot < slots.size
    · simp [Machine.perform, Request.answer, Request.see, Request.leave, Machine.sight, h]
    · simp [Machine.perform, Request.answer, Request.see, Request.leave, Machine.sight, h,
        Array.setIfInBounds_eq_of_size_le (Nat.le_of_not_lt h)]
  | _ => rfl

/-- Whether a request sees the same in two sights. -/
structure Sight.AgreeAt (callbacks : Callbacks σ α) (request : Request σ α) (a b : Sight σ) :
    Prop where
  size : a.slots.size = b.slots.size
  slot : ∀ slot, request.slot? = some slot → a.slots[slot]? = b.slots[slot]?
  item : ∀ index, request.item? = some index → callbacks.Counts index →
    a.calls[index]? = b.calls[index]?

namespace Sight

variable {callbacks : Callbacks σ α} {request other : Request σ α} {a b c : Sight σ}

theorem AgreeAt.refl (callbacks : Callbacks σ α) (request : Request σ α) (a : Sight σ) :
    AgreeAt callbacks request a a :=
  ⟨rfl, fun _ _ => rfl, fun _ _ _ => rfl⟩

theorem AgreeAt.symm (h : AgreeAt callbacks request a b) : AgreeAt callbacks request b a :=
  ⟨h.size.symm, fun slot hs => (h.slot slot hs).symm,
    fun index hi hc => (h.item index hi hc).symm⟩

theorem AgreeAt.trans (h : AgreeAt callbacks request a b) (h' : AgreeAt callbacks request b c) :
    AgreeAt callbacks request a c :=
  ⟨h.size.trans h'.size, fun slot hs => (h.slot slot hs).trans (h'.slot slot hs),
    fun index hi hc => (h.item index hi hc).trans (h'.item index hi hc)⟩

/-- The same request on both sides keeps them alike. -/
theorem AgreeAt.see (h : AgreeAt callbacks request a b) (other : Request σ α) :
    AgreeAt callbacks request (other.see a) (other.see b) := by
  refine ⟨by simp [h.size], fun slot hs => ?_, fun index hi hc => ?_⟩
  · have hslot := h.slot slot hs
    cases other with
    | store place value =>
      simp only [Request.see, Array.getElem?_setIfInBounds, h.size]
      split
      · rfl
      · exact hslot
    | _ => exact hslot
  · have hitem := h.item index hi hc
    cases other with
    | fetch place =>
      simp only [Request.see, Array.getElem?_modify, hitem]
    | _ => exact hitem

/-- A request changes what another one sees only if they clash. -/
theorem agreeAt_see_of_not_clashes (h : ¬ other.Clashes callbacks request) (a : Sight σ) :
    AgreeAt callbacks request (other.see a) a := by
  refine ⟨by simp, fun slot hs => ?_, fun index hi hc => ?_⟩
  · cases other with
    | store place value =>
      have hne : place ≠ slot := fun he => h (.inl ⟨slot, by rw [← he]; rfl, hs⟩)
      simp only [Request.see, Array.getElem?_setIfInBounds_ne hne]
    | _ => rfl
  · cases other with
    | fetch place =>
      have hne : place ≠ index := fun he => h (.inr (.inr ⟨index, by rw [← he]; rfl, hi, hc⟩))
      simp only [Request.see, Array.getElem?_modify, if_neg hne]
    | _ => rfl

end Sight

/-- **A request is answered alike wherever it sees the same.** -/
theorem Request.answer_congr {callbacks : Callbacks σ α} {request : Request σ α} {a b : Sight σ}
    (h : Sight.AgreeAt callbacks request a b) :
    request.answer callbacks a = request.answer callbacks b := by
  cases request with
  | load slot => simp only [Request.answer, h.slot slot rfl, h.size]
  | store slot value => simp only [Request.answer, h.size]
  | fetch index =>
    simp only [Request.answer]
    by_cases hc : callbacks.Counts index
    · rw [h.item index rfl hc]
    · exact Callbacks.fetch_eq_of_not_counts hc _ _
  | _ => rfl

/-! ## Requests one after the other -/

/-- What is to be seen after some requests. -/
def Sight.after (sight : Sight σ) (requests : List (Request σ α)) : Sight σ :=
  requests.foldl (fun sight request => request.see sight) sight

/-- The store after some requests. -/
def Store.after (element : Element α) (store : Store α) (requests : List (Request σ α)) : Store α :=
  requests.foldl (fun store request => request.leave element store) store

namespace Sight

@[simp] theorem after_nil (sight : Sight σ) : sight.after ([] : List (Request σ α)) = sight := rfl

@[simp] theorem after_cons (sight : Sight σ) (request : Request σ α)
    (requests : List (Request σ α)) :
    sight.after (request :: requests) = (request.see sight).after requests := rfl

theorem after_append (sight : Sight σ) (first second : List (Request σ α)) :
    sight.after (first ++ second) = (sight.after first).after second :=
  List.foldl_append

@[simp] theorem size_after (sight : Sight σ) (requests : List (Request σ α)) :
    (sight.after requests).slots.size = sight.slots.size := by
  induction requests generalizing sight with
  | nil => rfl
  | cons request rest ih => rw [after_cons, ih, Request.size_see]

/-- A slot that no request writes keeps its value. -/
theorem slot_after_of_not_stored {requests : List (Request σ α)} {slot : Nat}
    (h : ∀ request ∈ requests, request.stored? ≠ some slot) (sight : Sight σ) :
    (sight.after requests).slots[slot]? = sight.slots[slot]? := by
  induction requests generalizing sight with
  | nil => rfl
  | cons request rest ih =>
    rw [after_cons, ih fun other hother => h other (List.mem_cons_of_mem _ hother)]
    have hne := h request List.mem_cons_self
    cases request with
    | store place value =>
      have hplace : place ≠ slot := fun he => hne (by rw [he]; rfl)
      simp only [Request.see, Array.getElem?_setIfInBounds_ne hplace]
    | _ => rfl

/-- Requests that ask for no item do not change how often items have been asked for. -/
theorem calls_after_of_no_item {requests : List (Request σ α)}
    (h : ∀ request ∈ requests, request.item? = none) (sight : Sight σ) :
    (sight.after requests).calls = sight.calls := by
  induction requests generalizing sight with
  | nil => rfl
  | cons request rest ih =>
    rw [after_cons, ih fun other hother => h other (List.mem_cons_of_mem _ hother)]
    have hnone := h request List.mem_cons_self
    cases request with
    | fetch index => cases hnone
    | _ => rfl

/-- The same requests on both sides keep them alike. -/
theorem AgreeAt.after {callbacks : Callbacks σ α} {request : Request σ α} {a b : Sight σ}
    (h : AgreeAt callbacks request a b) (requests : List (Request σ α)) :
    AgreeAt callbacks request (a.after requests) (b.after requests) := by
  induction requests generalizing a b with
  | nil => exact h
  | cons other rest ih => exact ih (h.see other)

/-- Requests that do not clash with another one do not change what it sees. -/
theorem agreeAt_after {callbacks : Callbacks σ α} {request : Request σ α}
    {requests : List (Request σ α)} (h : ∀ other ∈ requests, ¬ other.Clashes callbacks request)
    (a : Sight σ) : AgreeAt callbacks request (a.after requests) a := by
  induction requests generalizing a with
  | nil => exact .refl ..
  | cons other rest ih =>
    have hrest := ih (fun q hq => h q (List.mem_cons_of_mem _ hq)) (other.see a)
    exact hrest.trans (agreeAt_see_of_not_clashes (h other List.mem_cons_self) a)

end Sight

namespace Store

@[simp] theorem after_nil (element : Element α) (store : Store α) :
    store.after element ([] : List (Request σ α)) = store := rfl

@[simp] theorem after_cons (element : Element α) (store : Store α) (request : Request σ α)
    (requests : List (Request σ α)) :
    store.after element (request :: requests) = (request.leave element store).after element requests :=
  rfl

theorem after_append (element : Element α) (store : Store α) (first second : List (Request σ α)) :
    store.after element (first ++ second) = (store.after element first).after element second :=
  List.foldl_append

/-- Requests that keep to the slots leave the store as it is. -/
theorem after_of_local {requests : List (Request σ α)} (h : ∀ request ∈ requests, request.Local)
    (element : Element α) (store : Store α) : store.after element requests = store := by
  induction requests with
  | nil => rfl
  | cons request rest ih =>
    rw [after_cons, (h request List.mem_cons_self).leave_eq element store]
    exact ih fun other hother => h other (List.mem_cons_of_mem _ hother)

/-- Requests log their records one after the other, and nothing else is logged. -/
theorem records_after (element : Element α) (store : Store α) (requests : List (Request σ α)) :
    (store.after element requests).journal.records.toList =
      store.journal.records.toList ++ requests.filterMap Request.noted? := by
  induction requests generalizing store with
  | nil => rw [after_nil, List.filterMap_nil, List.append_nil]
  | cons request rest ih =>
    rw [after_cons, ih]
    cases request <;> simp [Request.leave, Request.noted?, List.filterMap_cons, Journal.countClone, Journal.countCall,
      Journal.note]

/-- The calls left in the journal are those to be seen. -/
theorem calls_after (element : Element α) (slots : Array σ) (store : Store α)
    (requests : List (Request σ α)) :
    (store.after element requests).journal.calls =
      (Sight.after ⟨slots, store.journal.calls⟩ requests).calls := by
  induction requests generalizing slots store with
  | nil => rfl
  | cons request rest ih =>
    rw [after_cons, Sight.after_cons, ih (request.see ⟨slots, store.journal.calls⟩).slots]
    congr 2
    rw [Request.calls_leave element request slots store]

end Store

end BlockMachine
