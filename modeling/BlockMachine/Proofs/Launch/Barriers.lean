import BlockMachine.BlockCopy
import BlockMachine.BlockScan
import BlockMachine.Proofs.Interleaving.InOrder
import BlockMachine.Proofs.Launch.Matched

/-!
# Counting the barriers of a program

A program that takes the same number of barriers whatever it is answered can be put together from parts that
do.  A block whose lanes all take that number never comes to a deadlock.

* `Lane.Takes.bind` — one program after another takes the barriers of both.
* `BlockScan.takes_scanFirst`, `BlockCopy.takes_copy` — the scan and the copy of a block.
* `Block.run_ne_deadlock` — a block whose lanes take the same number of barriers.
* `Returns` — a call that answers, with a result or with an error of the library.
* `launchInOrder_returns` — so does every launch of a kernel that is `InStep`, whatever the caller's code does.
-/

set_option autoImplicit false

namespace BlockMachine

variable {σ α β γ : Type}

/-! ## Programs -/

namespace Lane

variable {barriers later : Nat}

/-- **One program after another** takes the barriers of both. -/
theorem Takes.bind {program : Lane σ α β} {rest : β → Lane σ α γ} (h : program.Takes barriers)
    (hrest : ∀ result, (rest result).Takes later) : (program >>= rest).Takes (barriers + later) := by
  induction program generalizing barriers with
  | done result =>
    obtain rfl : barriers = 0 := h
    rw [done_bind, Nat.zero_add]
    exact hrest result
  | fault _ => trivial
  | barrier next ih =>
    obtain ⟨more, rfl, hnext⟩ := h
    exact ⟨more + later, Nat.add_right_comm .., ih hnext⟩
  | ask request next ih => exact fun answer => ih answer (h answer)

/-- A program without barriers in front of another one. -/
theorem Takes.quiet_bind {program : Lane σ α β} {rest : β → Lane σ α γ} (h : program.Takes 0)
    (hrest : ∀ result, (rest result).Takes later) : (program >>= rest).Takes later := by
  have hall := h.bind hrest
  rwa [Nat.zero_add] at hall

/-- A program without barriers behind another one. -/
theorem Takes.bind_quiet {program : Lane σ α β} {rest : β → Lane σ α γ} (h : program.Takes barriers)
    (hrest : ∀ result, (rest result).Takes 0) : (program >>= rest).Takes barriers :=
  h.bind hrest

theorem takes_ofExcept_bind {value : Except Panic β} {rest : β → Lane σ α γ}
    (hrest : ∀ result, value = .ok result → (rest result).Takes later) :
    (ofExcept value >>= rest).Takes later := by
  cases value with
  | ok result => exact hrest result rfl
  | error panic => trivial

theorem takes_sync_bind {rest : Unit → Lane σ α γ} (hrest : (rest ()).Takes later) :
    (sync >>= rest).Takes (later + 1) :=
  ⟨later, rfl, hrest⟩

theorem takes_ite {condition : Prop} [Decidable condition] {program other : Lane σ α β}
    (h : condition → program.Takes barriers) (hother : ¬ condition → other.Takes barriers) :
    (if condition then program else other).Takes barriers := by
  split
  · next hcondition => exact h hcondition
  · next hcondition => exact hother hcondition

/-- Work of the same number of barriers for each member of a list. -/
theorem takes_forEach {ι : Type} {work : ι → Lane σ α Unit} (list : List ι)
    (h : ∀ item ∈ list, (work item).Takes barriers) :
    (forEach list work).Takes (list.length * barriers) := by
  induction list with
  | nil => exact Nat.zero_mul barriers
  | cons item rest ih =>
    have hrest := ih fun other hother => h other (List.mem_cons_of_mem _ hother)
    rw [List.length_cons, Nat.succ_mul, Nat.add_comm]
    exact (h item List.mem_cons_self).bind fun _ => hrest

end Lane

/-- A lane that has stopped, and takes a number of barriers from then on. -/
def Stop.Takes : Stop σ α β → (barriers : Nat) → Prop
  | finished _, barriers => barriers = 0
  | faulted _, _ => True
  | waiting next, barriers => ∃ rest, barriers = rest + 1 ∧ next.Takes rest

/-- Stopping takes no barrier. -/
theorem Lane.Takes.advance {program : Lane σ α β} {barriers : Nat} (h : program.Takes barriers)
    (callbacks : Callbacks σ α) (machine : Machine σ α) :
    (program.advance callbacks machine).1.Takes barriers := by
  induction program generalizing machine with
  | done _ => exact h
  | fault _ => trivial
  | barrier _ _ => exact h
  | ask request next ih =>
    unfold Lane.advance drive
    cases machine.perform callbacks request with
    | mk result after =>
      cases result with
      | ok answer => exact ih answer (h answer) after
      | error _ => trivial

theorem Lane.takes_advanceAll {lanes : List (Lane σ α β)} {barriers : Nat}
    (h : ∀ lane ∈ lanes, lane.Takes barriers) (callbacks : Callbacks σ α) (machine : Machine σ α) :
    ∀ stop ∈ (advanceAll callbacks lanes machine).1, stop.Takes barriers := by
  induction lanes generalizing machine with
  | nil => exact fun _ hstop => absurd hstop List.not_mem_nil
  | cons lane rest ih =>
    intro stop hstop
    rcases List.mem_cons.mp hstop with rfl | hstop
    · exact (h lane List.mem_cons_self).advance callbacks machine
    · exact ih (fun other hother => h other (List.mem_cons_of_mem _ hother)) _ stop hstop

/-! ## Scans and copies -/

theorem BlockScan.takes_round (lane n distance : Nat) :
    (round lane n distance : Lane σ α Unit).Takes 2 := by
  unfold round
  refine Lane.takes_ite (fun _ answer answer' sum => ?_) fun _ => ?_
  · exact ⟨1, rfl, fun _ => ⟨0, rfl, rfl⟩⟩
  · exact ⟨1, rfl, 0, rfl, rfl⟩

/-- A scan takes two barriers in each of its rounds. -/
theorem BlockScan.takes_scanFirst (context : LaneContext) (slots n : Nat) :
    (scanFirst context slots n : Lane σ α Unit).Takes (2 * roundCount n) := by
  unfold scanFirst
  refine Lane.takes_ite (fun _ => ?_) fun _ => trivial
  have hrounds := Lane.takes_forEach (distances n)
    fun distance _ => takes_round (σ := σ) (α := α) context.lane n distance
  rw [distances, List.length_map, List.length_range, Nat.mul_comm] at hrounds
  exact hrounds

namespace BlockCopy

/-- Work without barriers for the share of a lane. -/
theorem takes_forShare (context : LaneContext) (count : Nat) {work : Nat → Lane σ α Unit}
    (h : ∀ index, (work index).Takes 0) : (forShare context count work).Takes 0 :=
  Lane.takes_ite (fun _ => trivial) fun _ => Lane.takes_forEach _ fun index _ => h index

theorem takes_writeBytes (view : WriteView) (index : Nat) (bytes : List UInt8) :
    (view.writeBytes index bytes : Lane σ α Unit).Takes 0 :=
  Lane.takes_ofExcept_bind fun _ _ _ => rfl

theorem takes_write (view : WriteView) (index : Nat) (value : α) :
    (view.write index value : Lane σ α Unit).Takes 0 :=
  Lane.takes_ite (fun _ _ => rfl) fun _ => trivial

theorem takes_copyBytes (context : LaneContext) (target : WriteView) (source : Bytes) :
    (copyBytes context target source : Lane σ α Unit).Takes 0 := by
  refine Lane.takes_ite (fun _ => trivial) fun _ => Lane.takes_ite (fun _ => ?_) fun _ => ?_
  · refine Lane.takes_ofExcept_bind fun words _ => Lane.takes_ofExcept_bind fun wordView _ =>
      (takes_forShare _ _ fun _ => takes_writeBytes ..).quiet_bind fun _ =>
        Lane.takes_ofExcept_bind fun rest _ => takes_forShare _ _ fun _ => takes_writeBytes ..
  · exact takes_forShare _ _ fun _ => takes_writeBytes ..

theorem takes_copyElements (context : LaneContext) (target : WriteView) (source : Placed α) :
    (copyElements context target source : Lane σ α Unit).Takes 0 := by
  refine takes_forShare _ _ fun index => Lane.takes_ofExcept_bind fun value _ => ?_
  exact fun copy => takes_write target index copy

/-- A copy has no barrier of its own. -/
theorem takes_copy (element : Element α) (context : LaneContext) (source : Placed α)
    (destination : WriteView) (first : Nat) :
    (copy element context source destination first : Lane σ α Nat).Takes 0 := by
  refine Lane.takes_ofExcept_bind fun target _ => Lane.takes_ite (fun _ => trivial) fun _ => ?_
  have hend : (Lane.ofExcept (Word.add first source.length) : Lane σ α Nat).Takes 0 := by
    cases Word.add first source.length <;> trivial
  have helements := (takes_copyElements (σ := σ) context target source).quiet_bind fun _ => hend
  have hbytes : (do
      let view ← Lane.ofExcept (target.cast 1 (bytesOf element source).length)
      copyBytes context view (bytesOf element source)
      Lane.ofExcept (Word.add first source.length) : Lane σ α Nat).Takes 0 :=
    Lane.takes_ofExcept_bind fun view _ => (takes_copyBytes context view _).quiet_bind fun _ => hend
  -- the note of the first lane takes no barrier either
  cases choosePath context.wideCopy element.isTrivial source.address target.address with
  | elementwise => exact Lane.takes_ite (fun _ _ => helements) fun _ => helements
  | wide => exact Lane.takes_ite (fun _ _ => hbytes) fun _ => hbytes
  | bytewise => exact Lane.takes_ite (fun _ _ => hbytes) fun _ => hbytes

end BlockCopy

/-! ## Blocks and launches -/

namespace Block

/-- Lanes that have stopped and take the same number of barriers do not wait in vain. -/
theorem verdict_ne_deadlock {stops : List (Stop σ α β)} {barriers : Nat}
    (h : ∀ stop ∈ stops, stop.Takes barriers) (hshut : resumable? stops = none) :
    verdict stops ≠ .deadlock := by
  unfold verdict
  cases hpanics : stops.filterMap Stop.panic? with
  | cons panic rest =>
    simp only
    cases (panic :: rest).find? fun panic => !panic.isRelease <;> exact nofun
  | nil =>
    have hwell : ∀ stop ∈ stops, stop.panic? = none := List.filterMap_eq_nil_iff.mp hpanics
    rw [if_neg]
    · exact nofun
    intro hany
    obtain ⟨stop, hstop, hwaits⟩ := List.any_eq_true.mp hany
    -- one lane waits, so that no lane has ended
    obtain ⟨more, rfl⟩ : ∃ more, barriers = more + 1 := by
      have htakes := h stop hstop
      cases stop with
      | waiting next =>
        obtain ⟨more, hmore, _⟩ := htakes
        exact ⟨more, hmore⟩
      | finished _ => cases hwaits
      | faulted _ => cases hwaits
    rcases resumable?_eq_or stops with ⟨next, hnext, _⟩ | ⟨_, other, hother, hends⟩
    · rw [hshut] at hnext
      cases hnext
    · have htakes := h other hother
      cases other with
      | waiting next => cases hends
      | finished _ => cases htakes
      | faulted panic => cases hwell _ hother

/-- **A block whose lanes take the same number of barriers** never comes to a deadlock. -/
theorem run_ne_deadlock (callbacks : Callbacks σ α) {barriers : Nat} {lanes : List (Lane σ α β)}
    (h : ∀ lane ∈ lanes, lane.Takes barriers) (machine : Machine σ α) :
    (run callbacks lanes machine).1 ≠ .deadlock := by
  induction barriers using Nat.strong_induction_on generalizing lanes machine with
  | _ barriers ih =>
    rcases List.eq_nil_or_concat lanes with rfl | ⟨early, last, rfl⟩
    · exact nofun
    have hstops := Lane.takes_advanceAll h callbacks machine
    rw [run_eq callbacks (by simp) machine]
    rcases resumable?_eq_or (Lane.advanceAll callbacks (early.concat last) machine).1 with
      ⟨next, hnext, hall⟩ | ⟨hshut, _⟩
    · have hlater : ∀ lane ∈ next, ∃ rest, barriers = rest + 1 ∧ lane.Takes rest :=
        fun lane hlane => hstops (.waiting lane) (hall ▸ List.mem_map_of_mem hlane)
      rw [hnext]
      cases next with
      | nil => exact nofun
      | cons first others =>
        obtain ⟨more, rfl, _⟩ := hlater first List.mem_cons_self
        refine ih more (Nat.lt_succ_self more) (fun lane hlane => ?_) _
        obtain ⟨rest, hrest, htakes⟩ := hlater lane hlane
        rwa [Nat.succ.inj hrest]
    · rw [hshut]
      exact verdict_ne_deadlock hstops hshut

end Block

/-- A call that answers: with a result, or with an error of the library. -/
inductive Returns {ρ : Type} : Except Failure ρ → Prop
  | ok (result : ρ) : Returns (.ok result)
  | refused (error : LibraryError) : Returns (.error (.error error))

/-- A kernel whose slots can be had, and all of whose lanes take the same barriers within a block. -/
structure Kernel.InStep (kernel : Kernel σ α) (geometry : Geometry) : Prop where
  slots : ∃ slots, kernel.slots geometry.threads = .ok slots
  takes : ∀ block, ∃ barriers, ∀ lane < geometry.threads,
    (kernel.program (geometry.context block lane)).Takes barriers

variable {kernel : Kernel σ α} {geometry : Geometry}

/-- A block of such a kernel ends well or with a fault. -/
theorem Kernel.InStep.runBlock_returns (h : kernel.InStep geometry) (block : Nat) (store : Store α) :
    Returns (runBlock kernel geometry block store).1 := by
  obtain ⟨slots, hslots⟩ := h.slots
  obtain ⟨barriers, htakes⟩ := h.takes block
  have hlanes : ∀ lane ∈ kernel.lanes geometry block, lane.Takes barriers := by
    intro lane hlane
    obtain ⟨number, hnumber, rfl⟩ := List.mem_map.mp hlane
    exact htakes number (List.mem_range.mp hnumber)
  have hrun := Block.run_ne_deadlock kernel.callbacks hlanes ⟨slots, store⟩
  rw [runBlock_def, hslots]
  cases hcase : Block.run kernel.callbacks (kernel.lanes geometry block) ⟨slots, store⟩ with
  | mk ending machine =>
    rw [hcase] at hrun
    cases ending with
    | deadlock => exact absurd rfl hrun
    | faulted message => simp only [hcase]; exact .refused _
    | complete => simp only [hcase]; exact .ok _
    | abandoned => simp only [hcase]; exact .ok _

theorem Kernel.InStep.runBlocks_returns (h : kernel.InStep geometry) (order : List Nat) (store : Store α) :
    Returns (runBlocks kernel geometry order store).1 := by
  induction order generalizing store with
  | nil => exact .ok ()
  | cons block rest ih =>
    have hblock := h.runBlock_returns block store
    rw [runBlocks_cons]
    cases hcase : runBlock kernel geometry block store with
    | mk result after =>
      rw [hcase] at hblock
      cases hblock with
      | ok _ => exact ih after
      | refused error => exact .refused error

/-- **A launch of such a kernel answers**, in any order of its blocks and whatever the caller's code does. -/
theorem Kernel.InStep.launchInOrder_returns {config : LaunchConfig} {blocks threads : Nat}
    (h : kernel.InStep ⟨blocks, threads, config.capability.supportsWideCopy⟩) (order : Nat → List Nat)
    (store : Store α) : Returns (launchInOrder order config kernel blocks threads store).1 := by
  rw [launchInOrder_def]
  cases config.validate with
  | error problem => exact .refused _
  | ok _ =>
    simp only
    split
    · exact .refused _
    · split
      · exact .ok ()
      · exact h.runBlocks_returns ..

end BlockMachine
