import BlockMachine.Proofs.Block.Stage

/-!
# The run of a block in lane order

`Block.run` lets the lanes of a stage come one after the other.

* `Block.run_eq` — one stage of a run, and then the rest.
* `Block.run_of_runs` — a block whose stages are without clashes ends as its stops tell, and leaves
  what its requests leave.
-/

set_option autoImplicit false

namespace BlockMachine

variable {σ α β : Type} {callbacks : Callbacks σ α}

namespace Block

/-- **One stage of a run, and then the rest.** -/
theorem run_eq (callbacks : Callbacks σ α) {lanes : List (Lane σ α β)} (hne : lanes ≠ [])
    (machine : Machine σ α) :
    run callbacks lanes machine =
      match resumable? (Lane.advanceAll callbacks lanes machine).1 with
      | some next => run callbacks next (Lane.advanceAll callbacks lanes machine).2
      | none => (verdict (Lane.advanceAll callbacks lanes machine).1,
          (Lane.advanceAll callbacks lanes machine).2) := by
  cases lanes with
  | nil => exact absurd rfl hne
  | cons first others =>
    clear hne
    simp only [run, runFrom]
    induction first generalizing machine with
    | done result =>
      simp [Lane.drive, conclude, Lane.advanceAll, Lane.advance, resumable?, Stop.next?]
    | fault panic =>
      simp [Lane.drive, conclude, Lane.advanceAll, Lane.advance, resumable?, Stop.next?]
    | barrier next _ =>
      simp only [Lane.drive, meet, Lane.advanceAll, Lane.advance]
      cases hothers : resumable? (Lane.advanceAll callbacks others machine).1 with
      | none =>
        have hall : resumable? (.waiting next :: (Lane.advanceAll callbacks others machine).1) =
            none := by
          simp only [resumable?] at hothers ⊢
          rw [List.mapM_cons, hothers]
          rfl
        rw [hall]
      | some rest =>
        have hall : resumable? (.waiting next :: (Lane.advanceAll callbacks others machine).1) =
            some (next :: rest) := by
          simp only [resumable?] at hothers ⊢
          rw [List.mapM_cons, hothers]
          rfl
        rw [hall]
    | ask request next ih =>
      simp only [Lane.drive, Lane.advanceAll, Lane.advance] at ih ⊢
      cases hp : machine.perform callbacks request with
      | mk result machine' =>
        cases result with
        | error panic => simp [conclude, resumable?, Stop.next?]
        | ok answer => exact ih answer machine'

end Block

/-- What is to be seen of a machine after some requests. -/
theorem Machine.sight_after (element : Element α) (machine : Machine σ α)
    (requests : List (Request σ α)) :
    (⟨(machine.sight.after requests).slots, machine.store.after element requests⟩ :
      Machine σ α).sight = machine.sight.after requests := by
  simp only [Machine.sight]
  rw [Store.calls_after element machine.slots]

/-- Lanes that do not clash stop, one after the other, as each would alone. -/
theorem Lane.advanceAll_eq {lanes : Nat} {programs : Nat → Lane σ α β} {sight : Sight σ}
    {stage : Stage σ α} {stops : Nat → Stop σ α β}
    (segment : ∀ lane < lanes, (programs lane).segment callbacks sight = (stage lane, stops lane))
    (apart : stage.Apart callbacks lanes) :
    ∀ (order : List Nat) (machine : Machine σ α), order.Nodup → (∀ lane ∈ order, lane < lanes) →
      (∀ lane ∈ order, ∀ request ∈ stage lane,
        Sight.AgreeAt callbacks request sight machine.sight) →
      Lane.advanceAll callbacks (order.map programs) machine =
        (order.map stops, ⟨(machine.sight.after (order.flatMap stage)).slots,
          machine.store.after callbacks.element (order.flatMap stage)⟩)
  | [], _, _, _, _ => rfl
  | lane :: rest, machine, hnodup, hlt, agree => by
    obtain ⟨hfresh, hrest⟩ := List.nodup_cons.mp hnodup
    have hlane := hlt lane List.mem_cons_self
    have hsegment : (programs lane).segment callbacks machine.sight = (stage lane, stops lane) :=
      Block.segment_of_agree (segment lane hlane) (agree lane List.mem_cons_self)
    rw [List.map_cons, Lane.advanceAll, Lane.advance_eq, hsegment]
    have hlater : ∀ other ∈ rest, ∀ request ∈ stage other, Sight.AgreeAt callbacks request sight
        (machine.sight.after (stage lane)) := by
      intro other hother request hr
      have hne : lane ≠ other := fun he => hfresh (he ▸ hother)
      have hsame : Sight.AgreeAt callbacks request (machine.sight.after (stage lane))
          machine.sight := by
        apply Sight.agreeAt_after
        intro own hown
        exact apart lane hlane other (hlt other (List.mem_cons_of_mem _ hother)) hne own hown
          request hr
      exact (agree other (List.mem_cons_of_mem _ hother) request hr).trans hsame.symm
    have hrec := advanceAll_eq segment apart rest
      ⟨(machine.sight.after (stage lane)).slots,
        machine.store.after callbacks.element (stage lane)⟩ hrest
      (fun other hother => hlt other (List.mem_cons_of_mem _ hother))
      (by rwa [Machine.sight_after])
    rw [Machine.sight_after] at hrec
    simp only [hrec, List.map_cons, List.flatMap_cons, Sight.after_append, Store.after_append]

namespace Block

theorem resumable?_map_waiting (order : List Nat) (next : Nat → Lane σ α β) :
    resumable? (order.map fun lane => Stop.waiting (next lane)) = some (order.map next) := by
  induction order with
  | nil => rfl
  | cons lane rest ih =>
    simp only [resumable?, List.map_cons] at ih ⊢
    rw [List.mapM_cons, ih]
    rfl

theorem resumable?_eq_none {stops : List (Stop σ α β)} {stop : Stop σ α β} (h : stop ∈ stops)
    (hnone : stop.next? = none) : resumable? stops = none := by
  induction stops with
  | nil => cases h
  | cons first rest ih =>
    simp only [resumable?] at ih ⊢
    rw [List.mapM_cons]
    rcases List.mem_cons.mp h with rfl | h
    · rw [hnone]
      rfl
    · rw [ih h]
      cases first.next? <;> rfl

theorem map_range_ne_nil {lanes : Nat} (h : 0 < lanes) {γ : Type} (f : Nat → γ) :
    (List.range lanes).map f ≠ [] :=
  List.ne_nil_of_mem (List.mem_map_of_mem (List.mem_range.mpr h))

variable {lanes : Nat}

/-- **The run of a block in lane order** performs the requests of its stages and ends as its stops
tell. -/
theorem run_of_runs {programs : Nat → Lane σ α β} {sight : Sight σ} {stages : List (Stage σ α)}
    {stops : Nat → Stop σ α β} (h : Runs callbacks lanes programs sight stages stops)
    (machine : Machine σ α) (hsight : machine.sight = sight) :
    run callbacks ((List.range lanes).map programs) machine =
      (verdict ((List.range lanes).map stops),
        ⟨(sight.after (stages.flatMap fun stage => stage.all lanes)).slots,
          machine.store.after callbacks.element
            (stages.flatMap fun stage => stage.all lanes)⟩) := by
  induction h generalizing machine with
  | stop segment apart halts =>
    obtain ⟨lane, hlane, hnone⟩ := halts
    have hmem := List.mem_range.mpr hlane
    rw [run_eq callbacks (map_range_ne_nil (Nat.zero_lt_of_lt hlane) _), Lane.advanceAll_eq segment apart _ _
      List.nodup_range (fun _ h => List.mem_range.mp h) (fun _ _ _ _ => hsight ▸ .refl ..),
      resumable?_eq_none (List.mem_map_of_mem hmem) hnone]
    simp only [hsight, List.flatMap_cons, List.flatMap_nil, List.append_nil, Stage.all]
  | pass segment apart later ih =>
    rw [run_eq callbacks (map_range_ne_nil later.lanes_pos _), Lane.advanceAll_eq segment apart _ _
      List.nodup_range (fun _ h => List.mem_range.mp h) (fun _ _ _ _ => hsight ▸ .refl ..),
      resumable?_map_waiting]
    simp only
    rw [ih _ (by rw [Machine.sight_after, hsight]; rfl)]
    simp only [List.flatMap_cons, Sight.after_append, Store.after_append, Stage.all]

end Block

end BlockMachine
