import BlockMachine.Proofs.Interleaving.Grid
import BlockMachine.Proofs.Memory.Writes

/-!
# Who writes what in a launch

* `Grid.writers` — the lanes that write a byte of a destination, each as often as it does.
* `Grid.SlotsApart` — between two barriers no lane of a block touches a slot that another one writes.
* `Grid.Follows.slotsApart` — so it is in a launch that keeps to a plan that ends well.
* `Grid.Follows.count_writers` — at the end a block has written its bytes as often as the plan tells.
-/

set_option autoImplicit false

namespace BlockMachine

open History

/-- What a deed writes at a byte of a slot of the destination. -/
def Deed.piece? {σ α : Type} (element : Element α) (slot place : Nat) (deed : Deed σ α) :
    Option (α ⊕ UInt8) :=
  deed.request?.bind fun request => request.piece? element slot place

namespace Grid

variable {σ α : Type}

/-- The lanes that write a byte of a slot of the destination, in the order in which they do. -/
def writers (element : Element α) (slot place : Nat) (log : List ((Nat × Nat) × Deed σ α)) :
    List (Nat × Nat) :=
  log.filterMap fun entry => (entry.2.piece? element slot place).map fun _ => entry.1

/-- Between two barriers no lane of a block reads or writes a slot that another one writes. -/
def SlotsApart (log : List ((Nat × Nat) × Deed σ α)) : Prop :=
  ∀ block barriers lane other, lane ≠ other →
    ∀ request ∈ Deed.segment barriers (own lane (ofBlock block log)),
    ∀ request' ∈ Deed.segment barriers (own other (ofBlock block log)),
    ∀ slot, request.stored? = some slot → request'.slot? ≠ some slot

section Log

variable {element : Element α} {slot place : Nat}

theorem writers_cons (entry : (Nat × Nat) × Deed σ α) (log : List ((Nat × Nat) × Deed σ α)) :
    writers element slot place (entry :: log) =
      ((entry.2.piece? element slot place).map fun _ => entry.1).toList ++
        writers element slot place log := by
  unfold writers
  rw [List.filterMap_cons]
  cases entry.2.piece? element slot place <;> rfl

theorem pieces_requests_cons {τ : Type} (entry : τ × Deed σ α) (log : List (τ × Deed σ α)) :
    Request.pieces element slot place (Deed.requests (entry :: log)) =
      (entry.2.piece? element slot place).toList ++
        Request.pieces element slot place (Deed.requests log) := by
  unfold Deed.requests Deed.piece?
  rw [List.filterMap_cons]
  cases entry.2.request? with
  | none => rfl
  | some request => exact Request.pieces_cons ..

theorem mem_writers {party : Nat × Nat} {log : List ((Nat × Nat) × Deed σ α)} :
    party ∈ writers element slot place log ↔ ∃ request, (party, .asks request) ∈ log ∧
      request.piece? element slot place ≠ none := by
  unfold writers
  rw [List.mem_filterMap]
  constructor
  · rintro ⟨⟨party', deed⟩, hmem, h⟩
    obtain ⟨piece, hpiece, rfl⟩ := Option.map_eq_some_iff.mp h
    cases deed with
    | asks request => exact ⟨request, hmem, Option.ne_none_iff_exists'.mpr ⟨piece, hpiece⟩⟩
    | arrives => cases hpiece
    | ends => cases hpiece
  · rintro ⟨request, hmem, hpiece⟩
    obtain ⟨piece, hpiece⟩ := Option.ne_none_iff_exists'.mp hpiece
    exact ⟨_, hmem, Option.map_eq_some_iff.mpr ⟨piece, hpiece, rfl⟩⟩

/-- There are as many writers as there are pieces written. -/
theorem length_writers (log : List ((Nat × Nat) × Deed σ α)) :
    (writers element slot place log).length =
      (Request.pieces element slot place (Deed.requests log)).length := by
  induction log with
  | nil => rfl
  | cons entry rest ih =>
    rw [writers_cons, pieces_requests_cons, List.length_append, List.length_append, ih]
    cases entry.2.piece? element slot place <;> rfl

/-- The writers of one block. -/
theorem count_writers (block : Nat) (log : List ((Nat × Nat) × Deed σ α)) :
    ((writers element slot place log).map Prod.fst).count block =
      (Request.pieces element slot place (Deed.requests (ofBlock block log))).length := by
  induction log with
  | nil => rfl
  | cons entry rest ih =>
    have hcons : ofBlock block (entry :: rest) = if entry.1.1 = block then
        (entry.1.2, entry.2) :: ofBlock block rest else ofBlock block rest := own_cons block _ _
    rw [writers_cons, List.map_append, List.count_append, ih, hcons]
    by_cases hblock : entry.1.1 = block
    · rw [if_pos hblock, pieces_requests_cons, List.length_append]
      cases entry.2.piece? element slot place with
      | none => rfl
      | some piece => simp [hblock]
    · rw [if_neg hblock]
      cases entry.2.piece? element slot place with
      | none => simp
      | some piece => simp [hblock]

end Log

/-! ## Launches that keep to a plan -/

section Follows

variable {kernel : Kernel σ α} {geometry : Geometry} {calls : Array Nat}
  {plan : Plan kernel geometry calls} {grid : Grid σ α} {log : List ((Nat × Nat) × Deed σ α)}

/-- What a lane asks is in the plan of its block. -/
theorem Follows.mem_plan (h : Follows plan grid log) {block lane : Nat} {request : Request σ α}
    (hmem : ((block, lane), .asks request) ∈ log) :
    block < geometry.blocks ∧ lane < geometry.threads ∧ request ∈ plan.requests block := by
  have hblock := h.log_lt _ hmem
  have hown := mem_ofBlock.mpr hmem
  have hfollows := h.blocks block hblock
  cases hcrew : grid.crew? block with
  | none =>
    rw [hcrew] at hfollows
    rw [hfollows.1] at hown
    cases hown
  | some crew =>
    rw [hcrew] at hfollows
    obtain ⟨hlane, stage, hstage, hr⟩ := Crew.Follows.mem_stage hfollows hown
    exact ⟨hblock, hlane, plan.mem_requests.mpr ⟨stage, hstage, Stage.mem_all.mpr ⟨lane, hlane, hr⟩⟩⟩

/-- What a lane asks between two barriers is its share of a stage. -/
theorem Follows.mem_segment (h : Follows plan grid log)
    (hends : ∀ block < geometry.blocks, Block.EndWell geometry.threads (plan.stops block))
    {block lane barriers : Nat} {request : Request σ α}
    (hr : request ∈ Deed.segment barriers (own lane (ofBlock block log))) :
    block < geometry.blocks ∧ lane < geometry.threads ∧
      ∃ stage, (plan.stages block)[barriers]? = some stage ∧ request ∈ stage lane := by
  obtain ⟨hblock, hlane, _⟩ := h.mem_plan (mem_ofBlock.mp (mem_own.mp (Deed.mem_of_segment hr)))
  refine ⟨hblock, hlane, ?_⟩
  have hcourse : own lane (ofBlock block log) <+: Stage.course (plan.stages block) lane := by
    have hfollows := h.blocks block hblock
    cases hcrew : grid.crew? block with
    | none =>
      rw [hcrew] at hfollows
      rw [hfollows.1]
      exact List.nil_prefix
    | some crew =>
      rw [hcrew] at hfollows
      exact Crew.Follows.own_isPrefix hfollows (hends block hblock) hlane
  have hmem := (Deed.segment_isPrefix hcourse barriers).subset hr
  rw [Deed.segment_course] at hmem
  cases hget : (plan.stages block)[barriers]? with
  | none =>
    rw [hget] at hmem
    cases hmem
  | some stage =>
    rw [hget] at hmem
    exact ⟨stage, rfl, hmem⟩

/-- **Between two barriers the lanes of a block keep apart.** -/
theorem Follows.not_clashes (h : Follows plan grid log)
    (hends : ∀ block < geometry.blocks, Block.EndWell geometry.threads (plan.stops block))
    {block lane other barriers : Nat} (hne : lane ≠ other) {request request' : Request σ α}
    (hr : request ∈ Deed.segment barriers (own lane (ofBlock block log)))
    (hr' : request' ∈ Deed.segment barriers (own other (ofBlock block log))) :
    ¬ request.Clashes kernel.callbacks request' := by
  obtain ⟨hblock, hlane, stage, hget, hr⟩ := h.mem_segment hends hr
  obtain ⟨_, hother, stage', hget', hr'⟩ := h.mem_segment hends hr'
  obtain rfl := Option.some.inj (hget.symm.trans hget')
  exact (plan.runs block hblock).apart stage (List.mem_of_getElem? hget) lane hlane other hother hne
    request hr request' hr'

theorem Follows.slotsApart (h : Follows plan grid log)
    (hends : ∀ block < geometry.blocks, Block.EndWell geometry.threads (plan.stops block)) :
    SlotsApart log :=
  fun _ _ _ _ hne _ hr _ hr' slot hstored hslot =>
    h.not_clashes hends hne hr hr' (.inl ⟨slot, hstored, hslot⟩)

/-- **A block has written its bytes as often as the plan tells** once the launch is over. -/
theorem Follows.count_writers (h : Follows plan grid log)
    (hends : ∀ block < geometry.blocks, Block.EndWell geometry.threads (plan.stops block))
    (hover : grid.isOver = true) (element : Element α) (slot place : Nat) {block : Nat}
    (hblock : block < geometry.blocks) :
    ((writers element slot place log).map Prod.fst).count block =
      (Request.pieces element slot place (plan.requests block)).length := by
  have hperm := (h.of_isOver hends hover).2.1 block hblock
  rw [Grid.count_writers, (Request.pieces_perm element slot place hperm).length_eq]

/-- The writers of all blocks. -/
theorem Follows.length_writers (h : Follows plan grid log)
    (hends : ∀ block < geometry.blocks, Block.EndWell geometry.threads (plan.stops block))
    (hover : grid.isOver = true) (element : Element α) (slot place : Nat) :
    (writers element slot place log).length = (Request.pieces element slot place
      ((List.range geometry.blocks).flatMap plan.requests)).length := by
  have hperm := (h.of_isOver hends hover).2.2
  rw [Grid.length_writers, (Request.pieces_perm element slot place hperm).length_eq]

/-- A launch under way can be brought to its end. -/
theorem exists_run_append (plan : Plan kernel geometry calls)
    (hends : ∀ block < geometry.blocks, Block.EndWell geometry.threads (plan.stops block))
    {store : Store α} (hcalls : store.journal.calls = calls) (scheduling : Scheduling)
    (places : List (Nat × Nat)) :
    ∃ more, (run scheduling kernel geometry store (places ++ more)).isOver = true := by
  obtain ⟨more, hover⟩ := (follows_run plan hcalls scheduling places).exists_run hends scheduling
  refine ⟨more, ?_⟩
  show (turns scheduling kernel geometry (start geometry store) (places ++ more)).isOver = true
  rw [turns_append]
  exact hover

end Follows

end Grid

end BlockMachine
