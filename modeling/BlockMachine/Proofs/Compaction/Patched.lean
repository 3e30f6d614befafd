import BlockMachine.Proofs.Compaction.Launch
import BlockMachine.Proofs.Launch.Stricter

/-!
# Clones that never panic

* `Element.patched` — an element type with clones that never panic, and otherwise the same.
* `Compaction.program_patched` — the lanes of a compaction do the same on it; only the answers to their
  requests for clones differ, which `Compaction.kernel_stricter` and `Compaction.clone_of_refused` tell.
-/

set_option autoImplicit false

namespace BlockMachine

open Request

variable {σ α : Type}

namespace Element

/-- The element type with values copied as they are where their clone would panic. -/
def patched (element : Element α) : Element α :=
  { element with clone := fun value => .ok ((element.clone value).toOption.getD value) }

variable (element : Element α)

theorem exists_clone_patched (value : α) : ∃ copy, element.patched.clone value = .ok copy :=
  ⟨_, rfl⟩

theorem byteAt_patched : element.patched.byteAt = element.byteAt := by
  funext values position
  obtain ⟨size, image, clone⟩ := element
  simp only [byteAt, patched]
  cases image <;> cases values[position / size]? <;> rfl

theorem piece?_patched (request : Request σ α) (slot place : Nat) :
    request.piece? element.patched slot place = request.piece? element slot place := by
  cases request with
  | write index value =>
    obtain ⟨size, image, clone⟩ := element
    simp only [piece?, pieceOf, patched]
    cases image <;> rfl
  | _ => rfl

end Element

namespace BlockCopy

theorem copy_patched (element : Element α) (context : LaneContext) (source : Placed α)
    (destination : WriteView) (first : Nat) :
    (copy element.patched context source destination first : Lane σ α Nat) =
      copy element context source destination first := by
  have hbytes : bytesOf element.patched source = bytesOf element source := by
    unfold bytesOf
    rw [Element.byteAt_patched]
    rfl
  unfold copy
  rw [hbytes]
  rfl

end BlockCopy

namespace Compaction

/-- The same task on elements whose clones never panic. -/
def Task.patched (task : Task α) : Task α := { task with element := task.element.patched }

variable (task : Task α)

theorem fullChunk_patched : fullChunk task.patched = fullChunk task := by
  funext context outFirst base
  unfold fullChunk
  simp only [Task.patched, BlockCopy.copy_patched]
  rfl

theorem fullChunks_patched : fullChunks task.patched = fullChunks task := by
  funext context count
  induction count with
  | zero => rfl
  | succ count ih =>
    funext outFirst base
    simp only [fullChunks, fullChunk_patched, ih]

theorem lastChunk_patched : lastChunk task.patched = lastChunk task := rfl

/-- **The lanes do the same** whether or not clones may panic. -/
theorem program_patched : program task.patched = program task := by
  funext context
  unfold program
  simp only [fullChunks_patched, lastChunk_patched]
  rfl

theorem kernel_patched (flags : View Nat) :
    { kernel flags task.patched with callbacks := (kernel flags task).callbacks } = kernel flags task := by
  simp only [kernel, program_patched]

/-- Clones may panic, and everything else is answered alike. -/
theorem kernel_stricter (flags : View Nat) :
    (kernel flags task).callbacks.Stricter (kernel flags task.patched).callbacks := by
  refine ⟨fun request sight => ?_, fun _ hcounts => hcounts⟩
  cases request with
  | clone value =>
    show task.element.clone value = .ok ((task.element.clone value).toOption.getD value) ∨
      ∃ panic, task.element.clone value = .error panic
    cases task.element.clone value with
    | ok copy => exact .inl rfl
    | error panic => exact .inr ⟨panic, rfl⟩
  | _ => exact .inl rfl

/-- Only clones are refused. -/
theorem clone_of_refused {flags : View Nat} {request : Request Nat α} {panic : Panic}
    (h : request.Refused (kernel flags task).callbacks (kernel flags task.patched).callbacks panic) :
    ∃ value, request.cloned? = some value ∧ task.element.clone value = .error panic := by
  obtain ⟨sight, hpanic, hne⟩ := h
  cases request with
  | clone value => exact ⟨value, rfl, hpanic⟩
  | _ => exact absurd hpanic hne

variable {task} {orders : Orders} {config : LaunchConfig} {element : Element α} {input : Placed α}
  {flags : View Nat} {address : Nat} {before store : Store α}

/-- A compaction comes to its writing launch whether or not clones may panic. -/
theorem Arrives.patched (h : Arrives orders config element input flags address before task store) :
    Arrives orders config element.patched input flags address before task.patched store :=
  ⟨h.nonempty, h.length, h.valid, h.cut, h.offsets, h.room, by rw [h.same]; rfl, h.output⟩

end Compaction

end BlockMachine
