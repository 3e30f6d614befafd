import BlockMachine.Proofs.Interleaving.Panics
import Mathlib.Logic.Hydra

/-!
# Turns come to an end

A lane is a tree, so it takes only so many turns.  A block therefore comes to a standstill, at which no
lane can do anything, and whether it is over then hangs on its barriers alone.

* `Station.Next` — where a lane can be found later, a well-founded relation.
* `Crew.exists_standstill` — every block can be brought to a standstill.
* `Crew.Abreast.isOver_of_rests` — a standstill is the end, unless some lane waits for another one that has
  ended.
-/

set_option autoImplicit false

namespace BlockMachine

open History

variable {σ α β : Type}

/-- Where a lane can be found after a turn, and where it was before. -/
inductive Station.Next : (later earlier : Station σ α β) → Prop
  | ended {later earlier : Station σ α β} (hl : later.isOver = true) (he : earlier.isOver = false) :
    Next later earlier
  | answer {request : Request σ α} (next : request.Answer → Lane σ α β) (answer : request.Answer) :
    Next (.running (next answer)) (.running (.ask request next))
  | arrive (next : Lane σ α β) : Next (.arrived next) (.running (.barrier next))
  | pass (next : Lane σ α β) : Next (.running next) (.arrived next)

namespace Station

theorem acc_of_isOver {station : Station σ α β} (h : station.isOver = true) : Acc Next station := by
  refine ⟨_, fun later hlater => ?_⟩
  cases hlater with
  | ended _ he =>
    rw [h] at he
    cases he
  | _ => cases h

/-- A lane comes to its end, wherever in its program it is. -/
theorem acc_program (program : Lane σ α β) :
    Acc Next (.running program) ∧ Acc Next (.arrived program) := by
  suffices hrunning : Acc Next (.running program) by
    refine ⟨hrunning, _, fun later hlater => ?_⟩
    cases hlater with
    | ended hl _ => exact acc_of_isOver hl
    | pass _ => exact hrunning
  induction program with
  | done _ =>
    refine ⟨_, fun later hlater => ?_⟩
    cases hlater with
    | ended hl _ => exact acc_of_isOver hl
  | fault _ =>
    refine ⟨_, fun later hlater => ?_⟩
    cases hlater with
    | ended hl _ => exact acc_of_isOver hl
  | barrier next ih =>
    refine ⟨_, fun later hlater => ?_⟩
    cases hlater with
    | ended hl _ => exact acc_of_isOver hl
    | arrive _ =>
      refine ⟨_, fun later hlater => ?_⟩
      cases hlater with
      | ended hl _ => exact acc_of_isOver hl
      | pass _ => exact ih
  | ask request next ih =>
    refine ⟨_, fun later hlater => ?_⟩
    cases hlater with
    | ended hl _ => exact acc_of_isOver hl
    | answer _ answer => exact ih answer

/-- **A lane takes only so many turns.** -/
theorem wellFounded_next : WellFounded (Next : Station σ α β → Station σ α β → Prop) := by
  refine ⟨fun station => ?_⟩
  cases station with
  | running program => exact (acc_program program).1
  | arrived next => exact (acc_program next).2
  | finished _ => exact acc_of_isOver rfl
  | unwound _ => exact acc_of_isOver rfl

end Station

namespace Crew

/-- The lanes of a block after a turn, and before it: one of them or all of them have gone on. -/
def Later (later earlier : Crew σ α β) : Prop :=
  Relation.TransGen (Relation.CutExpand Station.Next) (later.stations : Multiset (Station σ α β))
    (earlier.stations : Multiset (Station σ α β))

theorem wellFounded_later : WellFounded (Later : Crew σ α β → Crew σ α β → Prop) :=
  InvImage.wf _ Station.wellFounded_next.cutExpand.transGen

/-- One lane has gone on. -/
theorem cutExpand_set {stations : List (Station σ α β)} {lane : Nat} {now station : Station σ α β}
    (hnow : stations[lane]? = some now) (h : Station.Next station now) :
    Relation.CutExpand Station.Next ((stations.set lane station : List _) : Multiset (Station σ α β))
      (stations : Multiset (Station σ α β)) := by
  induction stations generalizing lane with
  | nil => cases hnow
  | cons first rest ih =>
    cases lane with
    | zero =>
      obtain rfl := Option.some.inj hnow
      exact Relation.cutExpand_single_add h (rest : Multiset (Station σ α β))
    | succ lane => exact (Relation.cutExpand_add_left {first}).mpr (ih hnow)

/-- All lanes have gone on from a barrier. -/
theorem reflTransGen_passed {stations : List (Station σ α β)}
    (h : stations.all Station.isArrived = true) :
    Relation.ReflTransGen (Relation.CutExpand Station.Next)
      ((stations.map Station.passed : List _) : Multiset (Station σ α β))
      (stations : Multiset (Station σ α β)) := by
  induction stations with
  | nil => exact .refl
  | cons first rest ih =>
    rw [List.all_cons, Bool.and_eq_true] at h
    have hrest : Relation.ReflTransGen (Relation.CutExpand Station.Next)
        (((first :: rest.map Station.passed) : List _) : Multiset (Station σ α β))
        ((first :: rest : List _) : Multiset (Station σ α β)) :=
      (ih h.2).lift (fun stations => {first} + stations) fun _ _ hstep =>
        (Relation.cutExpand_add_left {first}).mpr hstep
    cases first with
    | arrived next =>
      exact .head (Relation.cutExpand_single_add (Station.Next.pass next)
        ((rest.map Station.passed : List _) : Multiset (Station σ α β))) hrest
    | _ => cases h.1

variable {callbacks : Callbacks σ α} {crew crew' : Crew σ α β} {lane : Nat} {store : Store α}
  {deed : Option (Deed σ α)}

/-- **A turn of a lane that does not rest takes the block further.** -/
theorem Turn.later (h : Turn callbacks crew lane store crew' deed) (hlive : ¬ crew.Rests lane) :
    Later crew' crew := by
  cases h with
  | rests hrests => exact absurd hrests hlive
  | finishes hs => exact .single (cutExpand_set hs (.ended rfl rfl))
  | faults hs => exact .single (cutExpand_set hs (.ended rfl rfl))
  | asks hs _ => exact .single (cutExpand_set hs (.answer _ _))
  | panics hs _ => exact .single (cutExpand_set hs (.ended rfl rfl))
  | waits hs _ _ => exact .single (cutExpand_set hs (.arrive _))
  | opens hs _ hall => exact .tail' (reflTransGen_passed hall) (cutExpand_set hs (.arrive _))
  | turnedAway hs _ => exact .single (cutExpand_set hs (.ended rfl rfl))
  | released hs _ => exact .single (cutExpand_set hs (.ended rfl rfl))

/-- **Every block can be brought to a standstill.** -/
theorem exists_standstill (callbacks : Callbacks σ α) (crew : Crew σ α β) (store : Store α) :
    ∃ turns, ∀ lane, (crew.run callbacks store turns).1.Rests lane := by
  induction crew using wellFounded_later.induction generalizing store with
  | _ crew ih =>
    by_cases hlive : ∃ lane, ¬ crew.Rests lane
    · obtain ⟨lane, hlane⟩ := hlive
      have hlater := (turn_spec callbacks crew lane store).later hlane
      obtain ⟨turns, hrests⟩ := ih _ hlater (crew.turn callbacks lane store).2
      exact ⟨lane :: turns, hrests⟩
    · exact ⟨[], fun lane => not_not.mp fun hlane => hlive ⟨lane, hlane⟩⟩

/-- Whether lanes have parted: one has come to its normal end while another one waits for it. -/
def Parted (crew : Crew σ α β) : Prop :=
  (∃ (lane : Nat) (result : β), crew.stations[lane]? = some (.finished result)) ∧
    ∃ (lane : Nat) (next : Lane σ α β), crew.stations[lane]? = some (.arrived next)

/-- **A standstill is the end**, unless the lanes of an unpoisoned block have parted. -/
theorem Abreast.isOver_of_rests {lanes segment : Nat} {log : List (Nat × Deed σ α)}
    (h : Abreast lanes segment crew log) (hrests : ∀ lane, crew.Rests lane)
    (heven : crew.poisoned = false → ¬ crew.Parted) : crew.isOver = true := by
  -- at a standstill nobody runs, and whoever waits does so at a barrier of an unpoisoned block
  have hstation : ∀ (lane : Nat) (station : Station σ α β), crew.stations[lane]? = some station →
      station.isOver = true ∨ (∃ next, station = .arrived next) ∧ crew.poisoned = false := by
    intro lane station hs
    have hrest := hrests lane
    unfold Rests at hrest
    rw [hs] at hrest
    cases station with
    | running _ => exact hrest.elim
    | arrived next => exact .inr ⟨⟨next, rfl⟩, hrest⟩
    | finished _ => exact .inl rfl
    | unwound _ => exact .inl rfl
  rw [isOver, List.all_eq_true]
  intro station hmem
  obtain ⟨lane, hs⟩ := List.mem_iff_getElem?.mp hmem
  rcases hstation lane station hs with hover | ⟨⟨next, rfl⟩, hp⟩
  · exact hover
  · -- not all lanes wait, and one that does not has come to its end
    refine absurd ?_ (heven hp)
    have hlane : lane < lanes := h.length ▸ (List.getElem?_eq_some_iff.mp hs).1
    obtain ⟨other, hother, hnot⟩ := List.all_eq_false.mp (h.shut (Nat.zero_lt_of_lt hlane))
    obtain ⟨place, hplace⟩ := List.mem_iff_getElem?.mp hother
    rcases hstation place other hplace with hover | ⟨⟨_, rfl⟩, _⟩
    · cases other with
      | finished result => exact ⟨⟨place, result, hplace⟩, lane, next, hs⟩
      | unwound panic => exact absurd hplace (h.calm hp place panic)
      | running _ => cases hover
      | arrived _ => cases hover
    · exact absurd rfl hnot

end Crew

end BlockMachine
