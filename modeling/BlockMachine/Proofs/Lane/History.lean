import BlockMachine.Proofs.Lane.Sight
import Mathlib.Data.List.Basic

/-!
# Histories

What several parties did, one thing after the other, each thing with the name of its party.

* `History.own` — what one party did.
* `History.perm_flatMap_own` — nothing is lost by looking at the parties one by one.
* `Sight.agreeAt_after_own` — a party sees what it would see if it were alone, as long as nobody else
  makes a request that clashes with its own.
-/

set_option autoImplicit false

namespace BlockMachine

namespace History

variable {τ ρ : Type} [DecidableEq τ]

/-- What one party did. -/
def own (party : τ) (history : List (τ × ρ)) : List ρ :=
  history.filterMap fun entry => if entry.1 = party then some entry.2 else none

@[simp] theorem own_nil (party : τ) : own party ([] : List (τ × ρ)) = [] := rfl

theorem own_cons (party : τ) (entry : τ × ρ) (history : List (τ × ρ)) :
    own party (entry :: history) =
      if entry.1 = party then entry.2 :: own party history else own party history := by
  unfold own
  rw [List.filterMap_cons]
  by_cases h : entry.1 = party
  · rw [if_pos h, if_pos h]
  · rw [if_neg h, if_neg h]

theorem own_append (party : τ) (first second : List (τ × ρ)) :
    own party (first ++ second) = own party first ++ own party second :=
  List.filterMap_append

theorem own_concat (party : τ) (history : List (τ × ρ)) (entry : τ × ρ) :
    own party (history ++ [entry]) =
      if entry.1 = party then own party history ++ [entry.2] else own party history := by
  rw [own_append, own_cons, own_nil]
  by_cases h : entry.1 = party
  · rw [if_pos h, if_pos h]
  · rw [if_neg h, if_neg h, List.append_nil]

theorem mem_own {party : τ} {history : List (τ × ρ)} {deed : ρ} :
    deed ∈ own party history ↔ (party, deed) ∈ history := by
  unfold own
  rw [List.mem_filterMap]
  constructor
  · rintro ⟨⟨other, deed'⟩, hmem, h⟩
    by_cases he : other = party
    · rw [if_pos he] at h
      cases h
      rw [← he]
      exact hmem
    · rw [if_neg he] at h
      cases h
  · intro h
    exact ⟨_, h, if_pos rfl⟩

theorem own_map_pair (party other : τ) (deeds : List ρ) :
    own party (deeds.map fun deed => (other, deed)) = if other = party then deeds else [] := by
  induction deeds with
  | nil => rw [List.map_nil, own_nil, ite_self]
  | cons deed rest ih =>
    rw [List.map_cons, own_cons, ih]
    by_cases h : other = party
    · rw [if_pos h, if_pos h, if_pos h]
    · rw [if_neg h, if_neg h, if_neg h]

/-- Several parties, each after the one before it. -/
theorem own_flatMap {parties : List τ} (hnodup : parties.Nodup) (deeds : τ → List ρ) (party : τ) :
    own party (parties.flatMap fun other => (deeds other).map fun deed => (other, deed)) =
      if party ∈ parties then deeds party else [] := by
  induction parties with
  | nil => rfl
  | cons other rest ih =>
    obtain ⟨hfresh, hrest⟩ := List.nodup_cons.mp hnodup
    rw [List.flatMap_cons, own_append, own_map_pair, ih hrest]
    by_cases h : other = party
    · subst h
      rw [if_pos rfl, if_neg hfresh, if_pos List.mem_cons_self, List.append_nil]
    · rw [if_neg h, List.nil_append]
      by_cases hmem : party ∈ rest
      · rw [if_pos hmem, if_pos (List.mem_cons_of_mem _ hmem)]
      · rw [if_neg hmem, if_neg]
        intro hcons
        rcases List.mem_cons.mp hcons with he | he
        · exact h he.symm
        · exact hmem he

/-- One more thing for one of the parties. -/
theorem perm_flatMap_cons {parties : List τ} (hnodup : parties.Nodup) {party : τ}
    (hmem : party ∈ parties) (deed : ρ) (deeds : τ → List ρ) :
    (parties.flatMap fun other => if party = other then deed :: deeds other else deeds other).Perm
      (deed :: parties.flatMap deeds) := by
  induction parties with
  | nil => cases hmem
  | cons other rest ih =>
    obtain ⟨hfresh, hrest⟩ := List.nodup_cons.mp hnodup
    rw [List.flatMap_cons, List.flatMap_cons]
    by_cases h : party = other
    · subst h
      have hsame : (rest.flatMap fun other => if party = other then deed :: deeds other
          else deeds other) = rest.flatMap deeds := by
        apply List.flatMap_congr
        intro other hother
        rw [if_neg]
        rintro rfl
        exact hfresh hother
      rw [if_pos rfl, hsame]
      exact .refl _
    · rw [if_neg h]
      have hrec := ih hrest ((List.mem_cons.mp hmem).resolve_left h)
      exact (hrec.append_left (deeds other)).trans List.perm_middle

/-- **Nothing is lost by looking at the parties one by one.** -/
theorem perm_flatMap_own {parties : List τ} (hnodup : parties.Nodup) {history : List (τ × ρ)}
    (hmem : ∀ entry ∈ history, entry.1 ∈ parties) :
    (history.map Prod.snd).Perm (parties.flatMap fun party => own party history) := by
  induction history with
  | nil => simp
  | cons entry rest ih =>
    have hrec := ih fun other hother => hmem other (List.mem_cons_of_mem _ hother)
    have hone := perm_flatMap_cons hnodup (hmem entry List.mem_cons_self) entry.2
      fun party => own party rest
    simp only [own_cons, List.map_cons]
    exact (hrec.cons entry.2).trans hone.symm

end History

open History

namespace Sight

variable {σ α : Type} {callbacks : Callbacks σ α}

/-- **A lane sees what it would see if it were alone**, as long as no request of another lane clashes
with the one in question. -/
theorem agreeAt_after_own {request : Request σ α} {lane : Nat}
    {history : List (Nat × Request σ α)}
    (h : ∀ entry ∈ history, entry.1 ≠ lane → ¬ entry.2.Clashes callbacks request)
    {a b : Sight σ} (hab : AgreeAt callbacks request a b) :
    AgreeAt callbacks request (a.after (history.map Prod.snd)) (b.after (own lane history)) := by
  induction history generalizing a b with
  | nil => exact hab
  | cons entry rest ih =>
    have hrest := fun other hother => h other (List.mem_cons_of_mem _ hother)
    rw [List.map_cons, after_cons, own_cons]
    by_cases he : entry.1 = lane
    · rw [if_pos he, after_cons]
      exact ih hrest (hab.see entry.2)
    · rw [if_neg he]
      have hone := agreeAt_see_of_not_clashes (h entry List.mem_cons_self he) a
      exact ih hrest (hone.trans hab)

/-- How often an item has been asked for after some requests. -/
theorem getElem?_calls_after (sight : Sight σ) (requests : List (Request σ α)) (index : Nat) :
    (sight.after requests).calls[index]? =
      sight.calls[index]?.map (· + requests.countP fun request => request.item? == some index) := by
  induction requests generalizing sight with
  | nil => simp
  | cons request rest ih =>
    rw [after_cons, ih, List.countP_cons]
    cases request with
    | fetch place =>
      simp only [Request.see, Request.item?, Array.getElem?_modify]
      by_cases h : place = index
      · subst h
        cases sight.calls[place]? with
        | none => simp
        | some count => simp; omega
      · have hne : (some place == some index) = false := by simpa using h
        rw [if_neg h]
        simp [h]
    | _ => simp [Request.see, Request.item?]

/-- The order of some requests does not matter for how often items have been asked for. -/
theorem calls_after_perm {first second : List (Request σ α)} (h : first.Perm second)
    (sight : Sight σ) : (sight.after first).calls = (sight.after second).calls := by
  apply Array.ext_getElem?
  intro index
  rw [getElem?_calls_after, getElem?_calls_after, h.countP_eq]

end Sight

end BlockMachine
