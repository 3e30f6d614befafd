import BlockMachine.Proofs.Lane.History

/-!
# Requests that ask for a run of items

* `Request.AsksEach` — some requests ask for each item of an interval once, and for no other; such requests
  can be put one after the other and in any order.
* `Sight.calls_after_asksEach`, `Store.calls_after_asksEach` — how often items have been asked for afterwards.
-/

set_option autoImplicit false

namespace BlockMachine

variable {σ α : Type}

namespace Request

/-- How often some requests ask for an item. -/
def asked (index : Nat) (requests : List (Request σ α)) : Nat :=
  requests.countP fun request => request.item? == some index

/-- Each item from `start` up to `stop` is asked for once, and no other. -/
def AsksEach (start stop : Nat) (requests : List (Request σ α)) : Prop :=
  ∀ index, asked index requests = if start ≤ index ∧ index < stop then 1 else 0

variable {start middle stop : Nat} {requests later : List (Request σ α)}

theorem asked_append (index : Nat) (requests later : List (Request σ α)) :
    asked index (requests ++ later) = asked index requests + asked index later :=
  List.countP_append

theorem asked_of_no_item (h : ∀ request ∈ requests, request.item? = none) (index : Nat) :
    asked index requests = 0 := by
  apply List.countP_eq_zero.mpr
  intro request hr
  simp [h request hr]

theorem asked_pos_of_mem {request : Request σ α} (hr : request ∈ requests) {index : Nat}
    (h : request.item? = some index) : 0 < asked index requests := by
  apply List.countP_pos_iff.mpr
  exact ⟨request, hr, by simp [h]⟩

/-- An item that is asked for lies in the interval. -/
theorem AsksEach.mem_interval (h : AsksEach start stop requests) {request : Request σ α}
    (hr : request ∈ requests) {index : Nat} (hitem : request.item? = some index) :
    start ≤ index ∧ index < stop := by
  have hpos := asked_pos_of_mem hr hitem
  rw [h index] at hpos
  by_cases hin : start ≤ index ∧ index < stop
  · exact hin
  · rw [if_neg hin] at hpos
    exact absurd hpos (Nat.lt_irrefl 0)

/-- An item of the interval is asked for. -/
theorem AsksEach.exists_mem (h : AsksEach start stop requests) {index : Nat} (hle : start ≤ index)
    (hlt : index < stop) : ∃ request ∈ requests, request.item? = some index := by
  have hpos : 0 < asked index requests := by
    rw [h index, if_pos ⟨hle, hlt⟩]
    exact Nat.one_pos
  obtain ⟨request, hr, hitem⟩ := List.countP_pos_iff.mp hpos
  exact ⟨request, hr, by simpa using hitem⟩

theorem AsksEach.of_no_item (h : ∀ request ∈ requests, request.item? = none) (start : Nat) :
    AsksEach start start requests := by
  intro index
  rw [asked_of_no_item h, if_neg (by omega)]

theorem AsksEach.append (h : AsksEach start middle requests) (h' : AsksEach middle stop later)
    (hle : start ≤ middle) (hle' : middle ≤ stop) : AsksEach start stop (requests ++ later) := by
  intro index
  rw [asked_append, h index, h' index]
  by_cases hearly : index < middle
  · rw [if_neg (show ¬ (middle ≤ index ∧ index < stop) by omega), Nat.add_zero]
    by_cases hstart : start ≤ index
    · rw [if_pos (by omega), if_pos (by omega)]
    · rw [if_neg (by omega), if_neg (by omega)]
  · rw [if_neg (show ¬ (start ≤ index ∧ index < middle) by omega), Nat.zero_add]
    by_cases hstop : index < stop
    · rw [if_pos (by omega), if_pos (by omega)]
    · rw [if_neg (by omega), if_neg (by omega)]

/-- The order of the requests does not matter. -/
theorem AsksEach.perm (h : AsksEach start stop requests) (hperm : requests.Perm later) :
    AsksEach start stop later := by
  intro index
  rw [← h index]
  exact (hperm.countP_eq _).symm

/-- Requests that ask for nothing may stand behind. -/
theorem AsksEach.append_of_no_item (h : AsksEach start stop requests) (hle : start ≤ stop)
    (hnone : ∀ request ∈ later, request.item? = none) :
    AsksEach start stop (requests ++ later) :=
  h.append (.of_no_item hnone stop) hle (Nat.le_refl _)

/-- Each of some parties asks for its own interval. -/
theorem AsksEach.flatMap {count : Nat} (bound : Nat → Nat) {made : Nat → List (Request σ α)}
    (hmono : ∀ party < count, bound party ≤ bound (party + 1))
    (h : ∀ party < count, AsksEach (bound party) (bound (party + 1)) (made party)) :
    AsksEach (bound 0) (bound count) ((List.range count).flatMap made) ∧ bound 0 ≤ bound count := by
  induction count with
  | zero => exact ⟨.of_no_item (by simp) _, Nat.le_refl _⟩
  | succ count ih =>
    obtain ⟨heach, hle⟩ := ih (fun party hparty => hmono party (Nat.lt_succ_of_lt hparty))
      fun party hparty => h party (Nat.lt_succ_of_lt hparty)
    have hnext := hmono count (Nat.lt_succ_self count)
    rw [List.range_succ, List.flatMap_append, List.flatMap_cons, List.flatMap_nil, List.append_nil]
    exact ⟨heach.append (h count (Nat.lt_succ_self count)) hle hnext, Nat.le_trans hle hnext⟩

end Request

open Request

/-- **How often items have been asked for** after each item of an interval has been asked for once. -/
theorem Sight.calls_after_asksEach {start stop : Nat} {requests : List (Request σ α)}
    (h : AsksEach start stop requests) (sight : Sight σ) (index : Nat) :
    (sight.after requests).calls[index]? =
      sight.calls[index]?.map (· + if start ≤ index ∧ index < stop then 1 else 0) := by
  rw [getElem?_calls_after, ← h index]
  rfl

theorem Store.calls_after_asksEach {start stop : Nat} {requests : List (Request σ α)}
    (h : AsksEach start stop requests) (element : Element α) (store : Store α) (index : Nat) :
    (store.after element requests).journal.calls[index]? =
      store.journal.calls[index]?.map (· + if start ≤ index ∧ index < stop then 1 else 0) := by
  rw [Store.calls_after element #[]]
  exact Sight.calls_after_asksEach h _ index

end BlockMachine
