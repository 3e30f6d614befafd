import BlockMachine.Proofs.Compaction.Asked
import BlockMachine.Proofs.Compaction.Returns
import BlockMachine.Proofs.Launch.Alike

/-!
# Masks and stencils

A mask selects what its bits select, written out one by one as a stencil.

* `Mask.unpacked` — the bits of a window, written out from the bytes.
* `Compaction.compactFlags_alike` — a compaction looks at no flag behind its input.
* `Compaction.SameRuns` — two compactions whose launches do the same in any order of their lanes.
* `Compaction.masks_unpack` — a compaction by a mask is one by the unpacked mask.
-/

set_option autoImplicit false

namespace BlockMachine

open Lane

variable {α σ : Type}

/-! ## Bits written out -/

namespace Mask

/-- The bits of some bytes, the least significant one of each byte first. -/
def bitsOf (bytes : List UInt8) : List Bool :=
  bytes.flatMap fun byte => (List.range 8).map byte.toNat.testBit

/-- The bits of the window, taken out of those of all bytes. -/
def unpacked (mask : Mask) : List Bool := ((bitsOf mask.bytes.toList).drop mask.start).take mask.length

/-- A bit is found in the byte that it belongs to. -/
theorem getElem?_bitsOf (bytes : List UInt8) (place : Nat) :
    (bitsOf bytes)[place]? = bytes[place / 8]?.map fun byte => byte.toNat.testBit (place % 8) := by
  unfold bitsOf
  induction bytes generalizing place with
  | nil => simp
  | cons byte rest ih =>
    have hlength : ((List.range 8).map byte.toNat.testBit).length = 8 := rfl
    rw [List.flatMap_cons]
    by_cases hplace : place < 8
    · rw [List.getElem?_append_left (by rwa [hlength]), List.getElem?_map, List.getElem?_range hplace,
        Nat.div_eq_of_lt hplace, Nat.mod_eq_of_lt hplace]
      rfl
    · obtain ⟨later, rfl⟩ : ∃ later, place = later + 8 := ⟨place - 8, by omega⟩
      rw [List.getElem?_append_right (by omega), hlength, Nat.add_sub_cancel, ih,
        Nat.add_div_right later (by omega), Nat.add_mod_right]
      rfl

/-- **The bits of a mask are those of its window.** -/
theorem toList_eq_unpacked (mask : Mask) : mask.toList = mask.unpacked := by
  refine List.ext_getElem? fun index => ?_
  rw [toList, List.getElem?_map, unpacked]
  by_cases hindex : index < mask.length
  · have hfits := mask.fits
    have hbyte : (mask.start + index) / 8 < mask.bytes.size := by omega
    rw [List.getElem?_range hindex, List.getElem?_take_of_lt hindex, List.getElem?_drop, getElem?_bitsOf,
      Array.getElem?_toList, Array.getElem?_eq_getElem hbyte, Option.map_some, Option.map_some]
    simp only [bit, hindex, decide_true, Bool.true_and, Array.getElem?_eq_getElem hbyte, Option.getD_some]
  · rw [List.getElem?_eq_none (by simpa using hindex), List.getElem?_take, if_neg hindex]
    rfl

/-- Five bits from the third one of a byte on. -/
example : (⟨#[0b10110100, 0b1], 2, 5, by decide⟩ : Mask).unpacked = [true, false, true, true, false] := by
  decide

end Mask

/-! ## Flags behind the input -/

/-- Views of the same length with the same items. -/
structure View.Alike (view others : View σ) : Prop where
  length : others.length = view.length
  items : ∀ index < view.length, ∀ earlier, others.item index earlier = view.item index earlier

namespace Reduction

variable {view others : View σ} (halike : view.Alike others) {cut : Decomposition}
  (hlength : view.length = cut.total) (blank : σ) (op : σ → σ → Except Panic σ) (length : Nat)

include halike hlength

theorem callbacks_alike : (kernel blank op view cut length).callbacks.AlikeOn (Request.Below cut.total)
    (kernel blank op others cut length).callbacks :=
  Callbacks.alikeOn_below fun index hindex => halike.items index (hlength ▸ hindex)

omit halike hlength in
theorem program_below (geometry : Geometry) (block lane : Nat) :
    ((kernel blank op view cut length).program (geometry.context block lane)).Only
      (Request.Below cut.total) :=
  only_program (fun _ hlocal => Request.below_of_no_item hlocal.item?_eq)
    (fun _ hindex => Request.below_fetch hindex) (fun _ _ => Request.below_of_no_item rfl) _ _

/-- A reduction of the same items is the same. -/
theorem reduceInOrder_alike (order : Nat → List Nat) (config : LaunchConfig) (store : Store σ) :
    reduceInOrder order config blank op others cut store =
      reduceInOrder order config blank op view cut store := by
  have hlaunch := launchInOrder_alike (callbacks_alike halike hlength blank op store.output.size)
    (fun block lane _ => program_below blank op store.output.size (config.geometry cut.count) block lane)
    order
  rw [reduceInOrder_def, reduceInOrder_def]
  rw [halike.length, ← hlaunch]
  rfl

end Reduction

namespace Compaction

section Alike

variable {flags others : View Nat} (halike : flags.Alike others) {task : Task α}
  (hlength : flags.length = task.cut.total)

include halike hlength

theorem callbacks_alike : (kernel flags task).callbacks.AlikeOn (Request.Below task.cut.total)
    (kernel others task).callbacks :=
  Callbacks.alikeOn_below fun index hindex => halike.items index (hlength ▸ hindex)

omit halike hlength in
theorem program_below (flags : View Nat) (task : Task α) (geometry : Geometry) (block : Nat) {lane : Nat}
    (hlane : lane < geometry.threads) :
    ((kernel flags task).program (geometry.context block lane)).Only (Request.Below task.cut.total) :=
  only_program (fun _ hnone => Request.below_of_no_item hnone) hlane
    fun _ hindex => Request.below_fetch hindex

/-- A writing launch with the same flags is the same. -/
theorem write_alike (order : Nat → List Nat) (config : LaunchConfig) (store : Store α) :
    write order config others task store = write order config flags task store := by
  have hlaunch := launchInOrder_alike (callbacks_alike halike hlength)
    (fun block lane hlane => program_below flags task (config.geometry task.cut.count) block hlane) order
  rw [write_def, write_def]
  simp only [← hlaunch]
  rfl

end Alike

section Flags

variable {flags others : View Nat} (halike : flags.Alike others)

include halike

theorem offsets_alike {cut : Decomposition} (hlength : flags.length = cut.total)
    (order : Nat → List Nat) (config : LaunchConfig) (journal : Journal) :
    offsets order config others cut journal = offsets order config flags cut journal := by
  rw [offsets_def, offsets_def]
  simp only [Reduction.reduceInOrder_alike halike hlength]

/-- **A compaction looks at no flag behind its input.** -/
theorem compactFlags_alike (orders : Orders) (config : LaunchConfig) (element : Element α)
    (input : Placed α) (address : Nat) (before : Store α) :
    compactFlags orders config element input others address before =
      compactFlags orders config element input flags address before := by
  rw [compactFlags_def, compactFlags_def]
  rw [halike.length]
  split
  · rfl
  split
  · rfl
  next hflags =>
  split
  · rfl
  split
  · rfl
  next cut hcut =>
  have hcovers : flags.length = cut.total := by
    rw [not_not.mp hflags, Decomposition.total_forLaunch hcut]
  rw [offsets_alike halike hcovers]
  split
  · rfl
  · exact write_alike halike hcovers ..

end Flags

/-! ## The two paths -/

/-- Two kernels whose launches do the same, whatever turns the lanes take. -/
structure SameRuns (kernel other : Kernel σ α) (geometry : Geometry) : Prop where
  run : ∀ scheduling store places,
    Grid.run scheduling other geometry store places = Grid.run scheduling kernel geometry store places
  log : ∀ scheduling store places,
    Grid.log scheduling other geometry store places = Grid.log scheduling kernel geometry store places

theorem SameRuns.of_alike {kernel : Kernel σ α} {geometry : Geometry} {code : Callbacks σ α}
    {allowed : Request σ α → Prop} (halike : kernel.callbacks.AlikeOn allowed code)
    (honly : ∀ block, ∀ lane < geometry.threads,
      (kernel.program (geometry.context block lane)).Only allowed) :
    SameRuns kernel { kernel with callbacks := code } geometry :=
  ⟨fun _ => Grid.run_alike halike honly, fun _ => Grid.log_alike halike honly⟩

/-- A compaction by a mask that is one by a stencil: the two answer and leave the same, and so does each of their
launches whatever turns its lanes take. -/
structure SamePath (config : LaunchConfig) (element : Element α) (input : Placed α) (mask : Mask)
    (stencil : Array Bool) (selector : Selector Bool) (address : Nat) (before : Store α) : Prop where
  result : copyIfMask config element input mask address before =
    copyIf config element input stencil selector address before
  counting : input.length ≤ mask.length → ∀ cut, Decomposition.forLaunch config input.length = .ok cut →
    SameRuns (Reduction.kernel 0 Word.add (stencilFlags stencil selector input.length) cut cut.count)
      (Reduction.kernel 0 Word.add (maskFlags mask input.length) cut cut.count)
      (config.geometry cut.count)
  writing : input.length ≤ mask.length → ∀ task store, Arrives (.ofConfig config) config element input
    (stencilFlags stencil selector input.length) address before task store →
      Arrives (.ofConfig config) config element input (maskFlags mask input.length) address before task
        store ∧
      SameRuns (kernel (stencilFlags stencil selector input.length) task)
        (kernel (maskFlags mask input.length) task) (config.geometry task.cut.count)

theorem size_unpacked (mask : Mask) : mask.unpacked.toArray.size = mask.length := by
  rw [← Mask.toList_eq_unpacked]
  simp [Mask.toList]

/-- The flags of a mask are those of its bits as a stencil. -/
theorem maskFlags_alike {mask : Mask} {length : Nat} (h : length ≤ mask.length) :
    (stencilFlags mask.unpacked.toArray (.ofValue id) length).Alike (maskFlags mask length) := by
  have hsize := size_unpacked mask
  have hlength := length_stencilFlags (h.trans hsize.ge) (.ofValue id)
  refine ⟨(Nat.min_eq_left h).trans hlength.symm, fun index hindex earlier => ?_⟩
  rw [hlength] at hindex
  have hvalue : mask.unpacked.toArray[index]? = some (mask.bit index) := by
    rw [← Mask.toList_eq_unpacked, List.getElem?_toArray, Mask.toList, List.getElem?_map,
      List.getElem?_range (Nat.lt_of_lt_of_le hindex h)]
    rfl
  rw [item_stencilFlags_eq _ (h.trans hsize.ge) hindex hvalue]
  unfold maskFlags
  rw [maskFlags_item mask h, if_pos hindex]
  rfl

/-- A compaction by a mask answers and leaves what one by its bits does. -/
theorem copyIfMask_eq_copyIf (config : LaunchConfig) (element : Element α) (input : Placed α) (mask : Mask)
    (address : Nat) (before : Store α) : copyIfMask config element input mask address before =
      copyIf config element input mask.unpacked.toArray (.ofValue id) address before := by
  have hsize := size_unpacked mask
  by_cases hmask : input.length ≤ mask.length
  · unfold copyIf
    rw [copyIfMask_eq config element hmask, copyIfInOrder_eq _ _ _ (hmask.trans hsize.ge)]
    exact compactFlags_alike (maskFlags_alike hmask) ..
  · have hshort : mask.unpacked.toArray.size < input.length := by omega
    rw [copyIfMask_def, if_pos (Nat.lt_of_not_le hmask), copyIf, copyIfInOrder_def, if_pos hshort, hsize]

/-- **A compaction by a mask is one by its unpacked bits**: it answers and leaves the same, also if the mask is
shorter or longer than the input or begins inside a byte, and its launches cannot be told apart. -/
theorem masks_unpack (config : LaunchConfig) (element : Element α) (input : Placed α) (mask : Mask)
    (address : Nat) (before : Store α) :
    SamePath config element input mask mask.unpacked.toArray (.ofValue id) address before := by
  have hsize := size_unpacked mask
  refine ⟨copyIfMask_eq_copyIf .., fun hmask cut hcut => ?_, fun hmask task store harrives => ?_⟩
  · have hcovers : (stencilFlags mask.unpacked.toArray (.ofValue id) input.length).length = cut.total := by
      rw [length_stencilFlags (hmask.trans hsize.ge), Decomposition.total_forLaunch hcut]
    exact .of_alike (Reduction.callbacks_alike (maskFlags_alike hmask) hcovers 0 Word.add cut.count)
      fun block lane _ => Reduction.program_below _ _ _ _ block lane
  · have halike := maskFlags_alike hmask
    have hcovers : (stencilFlags mask.unpacked.toArray (.ofValue id) input.length).length =
        task.cut.total := harrives.length.trans (Decomposition.total_forLaunch harrives.cut).symm
    refine ⟨⟨harrives.nonempty, halike.length.trans harrives.length, harrives.valid, harrives.cut, ?_,
      harrives.room, harrives.same, harrives.output⟩, .of_alike (callbacks_alike halike hcovers)
        fun block lane hlane => program_below _ task _ block hlane⟩
    rw [offsets_alike halike hcovers]
    exact harrives.offsets

end Compaction

end BlockMachine
