import BlockMachine.Proofs.Block.Works
import BlockMachine.Proofs.Decomposition
import BlockMachine.Proofs.Launch.Broken
import BlockMachine.Proofs.Launch.Refusals
import BlockMachine.Reduction

/-!
# Blocks that come upon elements that panic

A block takes its interval in chunks, and some of the elements raise the alarm: what is asked for them is
refused.  The block does all of its work up to the first chunk with such an element, and in that chunk all that
is asked for the other elements.

* `Decomposition.ComesTo` — a block comes to the chunk of an element.
* `Block.Reach`, `Block.Halts` — the chunks that a block takes, and how its lanes stop.
* `Block.BrokenOff.reach` — so do the blocks that break off at their first refusal.
* `Decomposition.Blames` — the panic that a launch reports is one of the first alarms of the block, and
  `Plan.Breaks.blames` says so of a launch each of whose blocks halts at its alarms.
-/

set_option autoImplicit false

namespace BlockMachine

open Reduction (chunks)

variable {σ α β ι : Type} {width : Nat}

/-! ## Chunks -/

namespace Decomposition

variable {cut : Decomposition} {block index : Nat}

/-- The chunk of a block that it takes in a turn: the first element and the number of elements. -/
def chunkAt (cut : Decomposition) (width block turn : Nat) : Nat × Nat :=
  (cut.start block + turn * width,
    min width (cut.start (block + 1) - (cut.start block + turn * width)))

/-- The turn in which a block takes the chunk of an element. -/
def turnOf (cut : Decomposition) (width block index : Nat) : Nat := (index - cut.start block) / width

/-- Whether a block comes to the chunk of an element of its interval: no chunk before has an element of a
kind. -/
structure ComesTo (cut : Decomposition) (width : Nat) (kind : Nat → Prop) (block index : Nat) : Prop where
  start_le : cut.start block ≤ index
  lt_stop : index < cut.start (block + 1)
  first : ∀ other, cut.start block ≤ other → other < cut.start (block + 1) → kind other →
    cut.turnOf width block index ≤ cut.turnOf width block other

/-- The number of chunks of a block. -/
def turns (cut : Decomposition) (width block : Nat) : Nat :=
  (cut.start (block + 1) - cut.start block + (width - 1)) / width

theorem chunks_eq (cut : Decomposition) (width block : Nat) :
    chunks ⟨cut.start block, cut.start (block + 1)⟩ width =
      (List.range (cut.turns width block)).map (cut.chunkAt width block) := rfl

/-- An element lies in the chunk of its turn. -/
theorem exists_lane (hwidth : 0 < width) (hle : cut.start block ≤ index)
    (hlt : index < cut.start (block + 1)) :
    ∃ lane < width, cut.turnOf width block index < cut.turns width block ∧
      lane < (cut.chunkAt width block (cut.turnOf width block index)).2 ∧
      index = (cut.chunkAt width block (cut.turnOf width block index)).1 + lane := by
  have hdiv := Nat.div_add_mod (index - cut.start block) width
  have hmod := Nat.mod_lt (index - cut.start block) hwidth
  rw [Nat.mul_comm] at hdiv
  simp only [chunkAt, turnOf, turns]
  refine ⟨(index - cut.start block) % width, hmod, ?_, by omega, by omega⟩
  rw [Nat.lt_div_iff_mul_lt hwidth]
  omega

/-- The elements of a chunk lie in the interval, and the chunk is the one of its turn. -/
theorem of_lane_lt {turn lane : Nat} (hlane : lane < width) (h : lane < (cut.chunkAt width block turn).2) :
    cut.start block ≤ (cut.chunkAt width block turn).1 + lane ∧
      (cut.chunkAt width block turn).1 + lane < cut.start (block + 1) ∧
      cut.turnOf width block ((cut.chunkAt width block turn).1 + lane) = turn := by
  simp only [chunkAt] at h
  have hrest : cut.start block + turn * width + lane - cut.start block = lane + turn * width := by omega
  simp only [chunkAt, turnOf]
  refine ⟨by omega, by omega, ?_⟩
  rw [hrest, Nat.add_mul_div_right _ _ (Nat.zero_lt_of_lt hlane), Nat.div_eq_of_lt hlane, Nat.zero_add]

/-- If a block comes to an element of a kind then to those of the chunks up to its own. -/
theorem ComesTo.iff_turnOf_le {kind : Nat → Prop} (h : cut.ComesTo width kind block index) (hkind : kind index)
    {other : Nat} (hle : cut.start block ≤ other) (hlt : other < cut.start (block + 1)) :
    cut.ComesTo width kind block other ↔ cut.turnOf width block other ≤ cut.turnOf width block index :=
  ⟨fun hother => hother.first index h.start_le h.lt_stop hkind, fun hturn =>
    ⟨hle, hlt, fun later hle' hlt' hlater => Nat.le_trans hturn (h.first later hle' hlt' hlater)⟩⟩

end Decomposition

/-- The numbers before one of the first numbers. -/
theorem range_eq_append {count turn : Nat} {early late : List Nat}
    (h : List.range count = early ++ turn :: late) : turn < count ∧ early = List.range turn := by
  rw [List.range_eq_range', List.range'_eq_append_iff] at h
  obtain ⟨before, hle, rfl, hlate⟩ := h
  have hmem : turn ∈ List.range' (0 + before * 1) (count - before) := hlate ▸ List.mem_cons_self
  have hpos : count - before ≠ 0 := by
    intro hzero
    rw [hzero] at hlate
    cases hlate
  obtain ⟨fewer, hfewer⟩ := Nat.exists_eq_succ_of_ne_zero hpos
  rw [hfewer, List.range'_succ] at hlate
  obtain rfl : turn = 0 + before * 1 := (List.cons.inj hlate).1
  rw [Nat.mul_one, Nat.zero_add, List.range_eq_range']
  exact ⟨by omega, rfl⟩

/-! ## Alarms -/

namespace Block

variable {refusal : Request σ α → Option Panic} {cut : Decomposition} {alarm : Nat → Option Panic}
  {block : Nat} {idle : Stage σ α → Prop} {does : Nat × Nat → Stage σ α → Prop}
  {stages broken : List (Stage σ α)} {stops : Nat → Stop σ α β}

/-- How the lanes of a block stop some of whose elements raise the alarm. -/
structure Halts (cut : Decomposition) (width : Nat) (alarm : Nat → Option Panic) (block : Nat)
    (stops : Nat → Stop σ α β) : Prop where
  well : (∀ index, cut.start block ≤ index → index < cut.start (block + 1) → alarm index = none) →
    EndWell width stops
  breaks : ∀ index, cut.start block ≤ index → index < cut.start (block + 1) → alarm index ≠ none →
    Breaks width stops
  /-- An alarm of the first chunk with any stops a lane. -/
  alarmed : ∀ lane < width, ∀ panic, stops lane = .faulted panic →
    ∃ index, cut.ComesTo width (alarm · ≠ none) block index ∧ alarm index = some panic

/-- The lanes of a stage stop at the alarms of the elements of a chunk, one element for each lane. -/
def Rings (refusal : Request σ α → Option Panic) (width : Nat) (alarm : Nat → Option Panic)
    (chunk : Nat × Nat) (stage : Stage σ α) : Prop :=
  ∀ lane < width, (stage lane).findSome? refusal = if lane < chunk.2 then alarm (chunk.1 + lane) else none

/-- What a block does that takes its first chunks up to the first with an alarm. -/
structure Reach (refusal : Request σ α → Option Panic) (cut : Decomposition) (width : Nat)
    (alarm : Nat → Option Panic) (block : Nat) (idle : Stage σ α → Prop)
    (does : Nat × Nat → Stage σ α → Prop) (broken : List (Stage σ α)) (reached : Nat) : Prop where
  /-- In each chunk each lane goes up to its first refusal. -/
  works : Stage.Works idle (fun turn stage => ∃ usual, does (cut.chunkAt width block turn) usual ∧
    ∀ lane < width, stage lane = Request.upTo refusal (usual lane)) (List.range reached) broken
  comesTo : ∀ index, cut.start block ≤ index → index < cut.start (block + 1) →
    (cut.turnOf width block index < reached ↔ cut.ComesTo width (alarm · ≠ none) block index)

/-- A stage without a refusal is done as usual. -/
theorem works_upTo {chunk : ι → Nat × Nat} {items : List ι}
    (h : Stage.Works idle (fun item => does (chunk item)) items stages)
    (hanswered : ∀ stage ∈ stages, stage.Answered refusal width) :
    Stage.Works idle (fun item stage => ∃ usual, does (chunk item) usual ∧
      ∀ lane < width, stage lane = Request.upTo refusal (usual lane)) items stages :=
  h.imp (fun _ _ hidle => hidle) fun _ stage hstage hdoes =>
    ⟨stage, hdoes, fun lane hlane => (Request.upTo_eq (hanswered stage hstage lane hlane)).symm⟩

/-- A lane that stops in a turn before which there is no alarm stops at an alarm of that turn. -/
theorem Rings.exists_alarm {turn lane : Nat} {stage : Stage σ α} {panic : Panic}
    (h : Rings refusal width alarm (cut.chunkAt width block turn) stage)
    (hearlier : ∀ index, cut.start block ≤ index → index < cut.start (block + 1) → alarm index ≠ none →
      turn ≤ cut.turnOf width block index) (hlane : lane < width)
    (hpanic : (stage lane).findSome? refusal = some panic) :
    ∃ index, cut.ComesTo width (alarm · ≠ none) block index ∧ cut.turnOf width block index = turn ∧
      alarm index = some panic := by
  rw [h lane hlane] at hpanic
  by_cases hin : lane < (cut.chunkAt width block turn).2
  · rw [if_pos hin] at hpanic
    obtain ⟨hle, hlt, hturn⟩ := cut.of_lane_lt hlane hin
    refine ⟨_, ⟨hle, hlt, fun other hle' hlt' hne => ?_⟩, hturn, hpanic⟩
    rw [hturn]
    exact hearlier other hle' hlt' hne
  · rw [if_neg hin] at hpanic
    cases hpanic

variable (hwidth : 0 < width) (hidle : ∀ stage, idle stage → stage.Answered refusal width)
  (hdoes : ∀ chunk stage, does chunk stage → Rings refusal width alarm chunk stage)

include hwidth hdoes

/-- No element raises the alarm whose chunk has been taken without a refusal. -/
theorem alarm_eq_none_of_answered {turn : Nat} {index : Nat} {items : List Nat}
    (hworks : Stage.Works idle (fun turn => does (cut.chunkAt width block turn)) items stages)
    (hanswered : ∀ stage ∈ stages, stage.Answered refusal width) (hturn : turn ∈ items)
    (hle : cut.start block ≤ index) (hlt : index < cut.start (block + 1))
    (hindex : cut.turnOf width block index = turn) : alarm index = none := by
  obtain ⟨lane, hlane, _, hin, heq⟩ := cut.exists_lane hwidth hle hlt
  obtain ⟨stage, hstage, hstageDoes⟩ := hworks.exists_stage hturn
  have hrings := hdoes _ stage hstageDoes lane hlane
  rw [hindex] at hin heq
  rw [if_pos hin, ← heq, (hanswered stage hstage).findSome? hlane] at hrings
  exact hrings.symm

include hidle

/-- **A block that comes upon elements which panic** takes its chunks up to the first with one of them. -/
theorem BrokenOff.reach (h : BrokenOff refusal width stages broken stops)
    (hworks : Stage.Works idle does (chunks ⟨cut.start block, cut.start (block + 1)⟩ width) stages) :
    (∃ reached, Reach refusal cut width alarm block idle does broken reached) ∧
      Halts cut width alarm block stops := by
  rw [cut.chunks_eq] at hworks
  have hturns := hworks.of_map
  cases h with
  | whole answered ends =>
    have hnone : ∀ index, cut.start block ≤ index → index < cut.start (block + 1) →
        alarm index = none := by
      intro index hle hlt
      obtain ⟨_, _, hturn, _⟩ := cut.exists_lane hwidth hle hlt
      exact alarm_eq_none_of_answered hwidth hdoes hturns answered (List.mem_range.mpr hturn) hle hlt rfl
    refine ⟨⟨_, works_upTo hturns answered, fun index hle hlt => ⟨fun _ => ⟨hle, hlt, ?_⟩, fun _ => ?_⟩⟩,
      fun _ => ends, fun index hle hlt hne => absurd (hnone index hle hlt) hne,
      fun lane hlane panic hpanic => ?_⟩
    · exact fun other hle' hlt' hne => absurd (hnone other hle' hlt') hne
    · exact (cut.exists_lane hwidth hle hlt).choose_spec.2.1
    · obtain ⟨result, hresult⟩ := ends lane hlane
      rw [hpanic] at hresult
      cases hresult
  | @off past future stage _ parts answered refused faulted =>
    subst parts
    obtain ⟨early, turn, late, hrange, hpast, hstage⟩ := hturns.split fun hpause => refused (hidle stage hpause)
    obtain ⟨_, rfl⟩ := range_eq_append hrange
    -- no element raises the alarm before this turn, and in it some do
    have hearlier : ∀ index, cut.start block ≤ index → index < cut.start (block + 1) →
        alarm index ≠ none → turn ≤ cut.turnOf width block index := by
      intro index hle hlt hne
      by_contra hearly
      exact hne (alarm_eq_none_of_answered hwidth hdoes hpast answered
        (List.mem_range.mpr (Nat.lt_of_not_le hearly)) hle hlt rfl)
    obtain ⟨first, hfirst, panic, hpanic⟩ := Stage.exists_findSome? refused
    obtain ⟨index, hcomes, hturn, halarm⟩ := (hdoes _ stage hstage).exists_alarm hearlier hfirst hpanic
    have hne : alarm index ≠ none := by
      rw [halarm]
      nofun
    refine ⟨⟨turn + 1, ?_, fun other hle hlt => ?_⟩, fun hnone => absurd
        (hnone index hcomes.start_le hcomes.lt_stop) hne,
      fun _ _ _ _ => ⟨first, hfirst, panic, (faulted first hfirst panic).mpr hpanic⟩,
      fun lane hlane panic hstop => ?_⟩
    · rw [List.range_succ]
      exact (works_upTo hpast answered).append (.work ⟨stage, hstage, fun _ _ => rfl⟩ .nil)
    · rw [Nat.lt_succ_iff, hcomes.iff_turnOf_le hne hle hlt, hturn]
    · obtain ⟨other, hother, _, hpanics⟩ := (hdoes _ stage hstage).exists_alarm hearlier hlane
        ((faulted lane hlane panic).mp hstop)
      exact ⟨other, hother, hpanics⟩

end Block

/-! ## Launches -/

/-- The panic of an answer, if it is one. -/
def Panic.of? : Except Panic β → Option Panic
  | .ok _ => none
  | .error panic => some panic

theorem Panic.of?_eq_some {answer : Except Panic β} {panic : Panic} :
    Panic.of? answer = some panic ↔ answer = .error panic := by
  cases answer with
  | ok _ => exact ⟨nofun, nofun⟩
  | error _ => exact ⟨fun h => congrArg _ (Option.some.inj h), fun h => congrArg _ (Except.error.inj h)⟩

/-- What a launch tells that reports a panic of a block: it is an alarm of an element of the block, there is
none in a chunk of the block before that element's, and if blocks begin one at a time there is none in a block
before this one. -/
structure Decomposition.Blames (cut : Decomposition) (width : Nat) (scheduling : Scheduling)
    (alarm : Nat → Option Panic) (block : Nat) (panic : Panic) : Prop where
  lt : block < cut.count
  element : ∃ index, cut.ComesTo width (alarm · ≠ none) block index ∧ alarm index = some panic
  before : ∀ other < cut.count, scheduling.Before other block →
    ∀ index, cut.start other ≤ index → index < cut.start (other + 1) → alarm index = none

namespace Plan

variable {cut : Decomposition} {alarm : Nat → Option Panic} {config : LaunchConfig} {kernel : Kernel σ α}
  {calls : Array Nat} {plan : Plan kernel (config.geometry cut.count) calls}
  (hhalts : ∀ block < cut.count, Block.Halts cut config.width alarm block (plan.stops block))

include hhalts

/-- Blocks that halt at their alarms break off. -/
theorem breakable_of_halts
    (hspeaks : ∀ index < cut.total, ∀ panic, alarm index = some panic → panic.isRelease = false) :
    plan.Breakable := by
  refine ⟨fun block hblock => ?_, fun block hblock lane hlane panic hpanic => ?_⟩
  · by_cases hnone : ∀ index, cut.start block ≤ index → index < cut.start (block + 1) → alarm index = none
    · exact .inl ((hhalts block hblock).well hnone)
    · simp only [not_forall] at hnone
      obtain ⟨index, hle, hlt, hne⟩ := hnone
      exact .inr ((hhalts block hblock).breaks index hle hlt hne)
  · obtain ⟨index, hcomes, halarm⟩ := (hhalts block hblock).alarmed lane hlane panic hpanic
    have hstop : cut.start (block + 1) ≤ cut.total := cut.start_le_total hblock
    exact hspeaks index (Nat.lt_of_lt_of_le hcomes.lt_stop hstop) panic halarm

/-- Some block breaks off if there is an alarm. -/
theorem exists_breaks_of_halts (hcount : 0 < cut.count) (h : ∃ index < cut.total, alarm index ≠ none) :
    ∃ block < cut.count, Block.Breaks config.width (plan.stops block) := by
  obtain ⟨index, hindex, hne⟩ := h
  obtain ⟨block, hblock, hle, hlt⟩ := cut.exists_block hcount hindex
  exact ⟨block, hblock, (hhalts block hblock).breaks index hle hlt hne⟩

/-- **The panic that a launch reports is one of the first alarms of its block.** -/
theorem Breaks.blames {scheduling : Scheduling} {block : Nat} {panic : Panic}
    {requests : List (Request σ α)} (h : plan.Breaks scheduling block panic requests) :
    cut.Blames config.width scheduling alarm block panic := by
  obtain ⟨lane, hlane, hpanic⟩ := h.faulted
  refine ⟨h.lt, (hhalts block h.lt).alarmed lane hlane panic hpanic,
    fun other hother hbefore index hle hlt => ?_⟩
  by_contra hne
  obtain ⟨lane, hlane, panic, hpanic⟩ := (hhalts other hother).breaks index hle hlt hne
  obtain ⟨result, hresult⟩ := h.before other hother hbefore lane hlane
  rw [hpanic] at hresult
  cases hresult

end Plan

end BlockMachine
