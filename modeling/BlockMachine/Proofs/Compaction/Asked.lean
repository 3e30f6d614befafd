import BlockMachine.Compaction
import BlockMachine.Proofs.Reduction.Asked

/-!
# What the lanes of a writing launch can ask for

Whatever they are answered, they ask only for items that there are.

* `BlockCopy.only_copy` — a copy asks for no item.
* `Compaction.only_program` — a lane of the writing launch.
-/

set_option autoImplicit false

namespace BlockMachine

open Lane

variable {σ α β : Type}

/-! ## Copies -/

namespace BlockCopy

variable {allowed : Request σ α → Prop}

theorem only_forShare (context : LaneContext) (count : Nat) {work : Nat → Lane σ α Unit}
    (h : ∀ index, (work index).Only allowed) : (forShare context count work).Only allowed :=
  only_ite (fun _ => trivial) fun _ => only_forEach _ fun index _ => h index

variable (hnone : ∀ request : Request σ α, request.item? = none → allowed request)

include hnone

theorem only_write (view : WriteView) (index : Nat) (value : α) :
    (view.write index value : Lane σ α Unit).Only allowed :=
  only_ite (fun _ => ⟨hnone _ rfl, fun _ => trivial⟩) fun _ => trivial

theorem only_writeBytes (view : WriteView) (index : Nat) (bytes : List UInt8) :
    (view.writeBytes index bytes : Lane σ α Unit).Only allowed :=
  only_ofExcept_bind fun _ _ => ⟨hnone _ rfl, fun _ => trivial⟩

theorem only_copyBytes (context : LaneContext) (target : WriteView) (source : Bytes) :
    (copyBytes context target source : Lane σ α Unit).Only allowed := by
  refine only_ite (fun _ => trivial) fun _ => only_ite (fun _ => ?_) fun _ => ?_
  · exact only_ofExcept_bind fun words _ => only_ofExcept_bind fun wordView _ =>
      (only_forShare _ _ fun _ => only_writeBytes hnone ..).bind fun _ =>
        only_ofExcept_bind fun rest _ => only_forShare _ _ fun _ => only_writeBytes hnone ..
  · exact only_forShare _ _ fun _ => only_writeBytes hnone ..

theorem only_copyElements (context : LaneContext) (target : WriteView) (source : Placed α) :
    (copyElements context target source : Lane σ α Unit).Only allowed := by
  refine only_forShare _ _ fun index => only_ofExcept_bind fun value _ => ?_
  exact ⟨hnone _ rfl, fun copy => only_write hnone target index copy⟩

/-- A copy asks for no item. -/
theorem only_copy (element : Element α) (context : LaneContext) (source : Placed α)
    (destination : WriteView) (first : Nat) :
    (copy element context source destination first : Lane σ α Nat).Only allowed := by
  refine only_ofExcept_bind fun target _ => only_ite (fun _ => trivial) fun _ => ?_
  have hend : (Lane.ofExcept (Word.add first source.length) : Lane σ α Nat).Only allowed :=
    only_ofExcept _
  have helements := (only_copyElements hnone context target source).bind fun _ => hend
  have hbytes : (do
      let view ← Lane.ofExcept (target.cast 1 (bytesOf element source).length)
      copyBytes context view (bytesOf element source)
      Lane.ofExcept (Word.add first source.length) : Lane σ α Nat).Only allowed :=
    only_ofExcept_bind fun view _ => (only_copyBytes hnone context view _).bind fun _ => hend
  -- the first lane also logs the copy
  have hnoted : ∀ {rest : Lane σ α Nat}, rest.Only allowed →
      ∀ record, (Lane.note record >>= fun _ => rest : Lane σ α Nat).Only allowed :=
    fun hrest record => ⟨hnone _ rfl, fun _ => hrest⟩
  cases choosePath context.wideCopy element.isTrivial source.address target.address with
  | elementwise => exact only_ite (fun _ => hnoted helements _) fun _ => helements
  | wide => exact only_ite (fun _ => hnoted hbytes _) fun _ => hbytes
  | bytewise => exact only_ite (fun _ => hnoted hbytes _) fun _ => hbytes

end BlockCopy

/-! ## The writing launch -/

namespace Compaction

variable {task : Task α} {context : LaneContext} {allowed : Request Nat α → Prop}
  (hnone : ∀ request : Request Nat α, request.item? = none → allowed request)

include hnone

theorem only_scatter (outFirst index : Nat) : (scatter task context outFirst index).Only allowed :=
  ⟨hnone _ rfl, fun _ => only_ofExcept_bind fun _ _ => only_ofExcept_bind fun place _ =>
    only_ofExcept_bind fun _ _ => ⟨hnone _ rfl, fun copy =>
      BlockCopy.only_write hnone task.output place copy⟩⟩

theorem only_scan : (BlockScan.scan context context.blockSize : Lane Nat α Unit).Only allowed :=
  BlockScan.only_scanFirst (fun _ hr => hnone _ hr.item?_eq) context _ _

theorem only_fullChunk (outFirst : Nat) {base : Nat} (hfetch : allowed (.fetch (base + context.lane))) :
    (fullChunk task context outFirst base).Only allowed := by
  have hlast : ∀ selected, (do
      let outNext ← Lane.ofExcept (Word.add outFirst selected)
      sync
      return outNext : Lane Nat α Nat).Only allowed :=
    fun _ => only_ofExcept_bind fun _ _ => trivial
  refine only_ofExcept_bind fun index hindex => ?_
  rw [Word.eq_of_add hindex]
  refine ⟨hfetch, fun flag => ⟨hnone _ rfl, fun _ => (only_scan hnone).bind fun _ =>
    only_ofExcept_bind fun last _ => ⟨hnone _ rfl, fun selected => ?_⟩⟩⟩
  refine only_ite (fun _ => only_ofExcept_bind fun source _ => ?_) fun _ =>
    only_ite (fun _ => ?_) fun _ => hlast selected
  · exact (BlockCopy.only_copy hnone task.element context source task.output outFirst).bind
      fun _ => hlast selected
  · exact (only_scatter hnone outFirst _).bind fun _ => hlast selected

/-- Full chunks and what comes after them, if `stop` is where the last of the chunks ends. -/
theorem only_fullChunks {rest : Nat × Nat → Lane Nat α Unit} (hlane : context.lane < context.blockSize)
    {stop : Nat} (hfetch : ∀ index < stop, allowed (.fetch index)) (count outFirst : Nat) {base : Nat}
    (hstop : base + count * context.blockSize ≤ stop)
    (hrest : ∀ outLast, (rest (outLast, base + count * context.blockSize)).Only allowed) :
    (fullChunks task context count outFirst base >>= rest).Only allowed := by
  induction count generalizing outFirst base with
  | zero =>
    rw [Nat.zero_mul, Nat.add_zero] at hrest
    exact hrest outFirst
  | succ count ih =>
    have hwidth : base + (count + 1) * context.blockSize =
        base + context.blockSize + count * context.blockSize := by
      rw [Nat.succ_mul, Nat.add_assoc, Nat.add_comm context.blockSize]
    rw [hwidth] at hrest hstop
    show (((fullChunk task context outFirst base).bind _).bind rest).Only _
    rw [bind_bind]
    exact (only_fullChunk hnone outFirst (hfetch _ (by omega))).bind fun outNext =>
      ih outNext hstop hrest

theorem only_lastChunk (outFirst base : Nat) {stop : Nat} (hfetch : ∀ index < stop, allowed (.fetch index)) :
    (lastChunk task context outFirst base stop).Only allowed := by
  have hflag : ∀ index, (lastFlag index stop : Lane Nat α Nat).Only allowed :=
    fun index => only_ite (fun hindex => ⟨hfetch _ hindex, fun _ => trivial⟩) fun _ => trivial
  refine only_ofExcept_bind fun index _ => (hflag index).bind fun flag => ⟨hnone _ rfl, fun _ =>
    (only_scan hnone).bind fun _ => ?_⟩
  exact only_ite (fun _ => only_scatter hnone outFirst index) fun _ => trivial

/-- **A lane of the writing launch** asks only for items that there are. -/
theorem only_program (hlane : context.lane < context.blockSize)
    (hfetch : ∀ index < task.cut.total, allowed (.fetch index)) : (program task context).Only allowed := by
  refine only_ofExcept_bind fun interval hinterval => only_ofExcept_bind fun outFirst _ => ?_
  obtain ⟨hblock, hspan⟩ := Decomposition.eq_of_interval hinterval
  have hle : interval.start ≤ interval.stop := by
    rw [hspan]
    exact task.cut.start_mono (Nat.le_succ _)
  have hlast := Decomposition.stop_le_of_interval hinterval
  have hfits : interval.length / context.blockSize * context.blockSize ≤ interval.length :=
    Nat.div_mul_le_self ..
  have hlength : interval.length = interval.stop - interval.start := rfl
  have hbelow : ∀ index < interval.stop, allowed (.fetch index) :=
    fun index hindex => hfetch index (by omega)
  refine only_fullChunks hnone hlane hbelow _ outFirst (by omega) fun outLast => ?_
  exact only_ite (fun _ => only_lastChunk hnone outLast _ hbelow) fun _ => trivial

end Compaction

end BlockMachine
