import BlockMachine.Proofs.Interleaving.Crew
import Mathlib.Algebra.Order.BigOperators.Group.List
import Mathlib.Algebra.Order.Group.Nat
import Mathlib.Data.List.Perm.Basic

/-!
# Blocks that end well

A run whose lanes all come to their normal end does so in every order.

* `Stage.course` — what a lane does from its beginning to its end.
* `Crew.Follows.own_isPrefix` — at any time a lane has done a first part of its course.
* `Crew.Follows.of_isOver` — a block that is over has done all of it, and its slots are those of the run.
* `Crew.Follows.exists_deed`, `Crew.Follows.exists_run` — a block that is not over can go on, and can be
  brought to its end.
-/

set_option autoImplicit false

namespace BlockMachine

open History

variable {σ α β : Type}

/-! ## Courses -/

/-- What a lane that passes some stages and comes to its normal end does. -/
def Stage.course : List (Stage σ α) → Nat → List (Deed σ α)
  | [], _ => [.ends]
  | [stage], lane => (stage lane).map .asks ++ [.ends]
  | stage :: next :: rest, lane => (stage lane).map .asks ++ .arrives :: course (next :: rest) lane

namespace Stage

theorem course_cons (stage : Stage σ α) {future : List (Stage σ α)} (h : future ≠ []) (lane : Nat) :
    course (stage :: future) lane =
      ((stage lane).map .asks ++ [.arrives]) ++ course future lane := by
  cases future with
  | nil => exact absurd rfl h
  | cons next rest =>
    rw [course, List.append_assoc]
    rfl

theorem course_append (past : List (Stage σ α)) {future : List (Stage σ α)} (h : future ≠ [])
    (lane : Nat) : course (past ++ future) lane = deeds past lane ++ course future lane := by
  induction past with
  | nil => rfl
  | cons stage rest ih =>
    have hne : rest ++ future ≠ [] := List.append_ne_nil_of_right_ne_nil _ h
    rw [List.cons_append, course_cons stage hne, ih, deeds, deeds, List.flatMap_cons]
    simp only [List.append_assoc]

/-- The requests on the way of a lane. -/
theorem filterMap_course (stages : List (Stage σ α)) (lane : Nat) :
    (course stages lane).filterMap Deed.request? = stages.flatMap fun stage => stage lane := by
  have hasks : ∀ requests : List (Request σ α),
      (requests.map Deed.asks).filterMap Deed.request? = requests := by
    intro requests
    rw [List.filterMap_map]
    exact List.filterMap_some
  induction stages with
  | nil => rfl
  | cons stage rest ih =>
    cases rest with
    | nil => simp [course, hasks, Deed.request?]
    | cons next rest =>
      rw [course, List.filterMap_append, hasks, List.filterMap_cons_none (by rfl), ih]
      rfl

end Stage

namespace Deed

/-- A segment of a first part is a first part of the segment. -/
theorem segment_isPrefix {first second : List (Deed σ α)} (h : first <+: second) (barriers : Nat) :
    segment barriers first <+: segment barriers second := by
  obtain ⟨rest, rfl⟩ := h
  induction first generalizing barriers with
  | nil => exact List.nil_prefix
  | cons deed first ih =>
    cases barriers with
    | zero =>
      cases deed with
      | asks request => exact List.cons_prefix_cons.mpr ⟨rfl, ih 0⟩
      | arrives => exact List.nil_prefix
      | ends => exact ih 0
    | succ barriers =>
      cases deed with
      | asks request => exact ih (barriers + 1)
      | arrives => exact ih barriers
      | ends => exact ih (barriers + 1)

/-- The requests of a segment are among the deeds. -/
theorem mem_of_segment {deeds : List (Deed σ α)} {barriers : Nat} {request : Request σ α}
    (h : request ∈ segment barriers deeds) : .asks request ∈ deeds := by
  induction deeds generalizing barriers with
  | nil => cases barriers <;> cases h
  | cons deed rest ih =>
    cases barriers with
    | zero =>
      cases deed with
      | asks other =>
        rcases List.mem_cons.mp h with rfl | h
        · exact List.mem_cons_self
        · exact List.mem_cons_of_mem _ (ih h)
      | arrives => cases h
      | ends => exact List.mem_cons_of_mem _ (ih h)
    | succ barriers => cases deed <;> exact List.mem_cons_of_mem _ (ih h)

theorem segment_zero_map_asks (requests : List (Request σ α)) {rest : List (Deed σ α)}
    (h : segment 0 rest = []) : segment 0 (requests.map .asks ++ rest) = requests := by
  induction requests with
  | nil => exact h
  | cons request requests ih => exact congrArg (request :: ·) ih

theorem segment_succ_map_asks (barriers : Nat) (requests : List (Request σ α))
    (rest : List (Deed σ α)) :
    segment (barriers + 1) (requests.map .asks ++ rest) = segment (barriers + 1) rest := by
  induction requests with
  | nil => rfl
  | cons request requests ih => exact ih

/-- The segments of a course are the shares of the lane in the stages. -/
theorem segment_course (stages : List (Stage σ α)) (lane barriers : Nat) :
    segment barriers (Stage.course stages lane) =
      (stages[barriers]?.map fun stage => stage lane).getD [] := by
  induction stages generalizing barriers with
  | nil => cases barriers <;> rfl
  | cons stage rest ih =>
    cases rest with
    | nil =>
      rw [Stage.course]
      cases barriers with
      | zero => exact segment_zero_map_asks _ rfl
      | succ barriers => exact segment_succ_map_asks ..
    | cons next rest =>
      rw [Stage.course]
      cases barriers with
      | zero => exact segment_zero_map_asks _ rfl
      | succ barriers =>
        rw [segment_succ_map_asks, List.getElem?_cons_succ]
        exact ih barriers

/-- The requests of a log in which every lane has come to its end are those of the stages. -/
theorem requests_perm {lanes : Nat} {stages : List (Stage σ α)} {log : List (Nat × Deed σ α)}
    (hlog : ∀ entry ∈ log, entry.1 < lanes)
    (hown : ∀ lane < lanes, own lane log = Stage.course stages lane) :
    (requests log).Perm (stages.flatMap fun stage => stage.all lanes) := by
  have hdeeds := perm_flatMap_own List.nodup_range fun entry hentry =>
    List.mem_range.mpr (hlog entry hentry)
  have hrequests : requests log = (log.map Prod.snd).filterMap request? := by
    rw [List.filterMap_map]
    rfl
  have hcourse : ((List.range lanes).flatMap fun lane => own lane log).filterMap request? =
      (List.range lanes).flatMap fun lane => stages.flatMap fun stage => stage lane := by
    rw [List.filterMap_flatMap]
    apply List.flatMap_congr
    intro lane hlane
    rw [hown lane (List.mem_range.mp hlane), Stage.filterMap_course]
  have hswap : ∀ stages : List (Stage σ α),
      ((List.range lanes).flatMap fun lane => stages.flatMap fun stage => stage lane).Perm
        (stages.flatMap fun stage => stage.all lanes) := by
    intro stages
    induction stages with
    | nil => simp
    | cons stage rest ih =>
      simp only [List.flatMap_cons]
      exact (List.flatMap_append_perm ..).symm.trans (ih.append_left _)
  rw [hrequests]
  exact (hdeeds.filterMap _).trans (hcourse ▸ hswap stages)

end Deed

namespace Crew

variable {callbacks : Callbacks σ α} {lanes : Nat} {first : Sight σ} {stages : List (Stage σ α)}
  {stops : Nat → Stop σ α β} {crew : Crew σ α β} {calls : Array Nat} {log : List (Nat × Deed σ α)}

/-- How the lanes of a scene end follows from the run. -/
theorem ends_of_runs {scene : Scene callbacks lanes β}
    (h : Block.Runs callbacks lanes scene.programs scene.sight (scene.stage :: scene.future) stops) :
    (scene.future = [] ∧ ∀ lane < lanes, scene.ends lane = stops lane) ∨
      (scene.future ≠ [] ∧ ∀ lane < lanes, ∃ next, scene.ends lane = .waiting next) := by
  generalize hstages : scene.stage :: scene.future = stages at h
  cases h with
  | stop segment _ _ =>
    refine .inl ⟨(List.cons.inj hstages).2, fun lane hlane => ?_⟩
    have hsegment := (segment lane hlane).symm.trans (scene.segment lane hlane)
    exact (Prod.mk.inj hsegment).2.symm
  | pass segment _ later =>
    refine .inr ⟨?_, fun lane hlane => ?_⟩
    · rw [(List.cons.inj hstages).2]
      cases later <;> exact List.cons_ne_nil _ _
    · have hsegment := (segment lane hlane).symm.trans (scene.segment lane hlane)
      exact ⟨_, (Prod.mk.inj hsegment).2.symm⟩

/-- In a run that ends well no lane of a scene faults. -/
theorem not_faulted_of_runs (hends : Block.EndWell lanes stops) {scene : Scene callbacks lanes β}
    (h : Block.Runs callbacks lanes scene.programs scene.sight (scene.stage :: scene.future) stops)
    {lane : Nat} (hlane : lane < lanes) (panic : Panic) : scene.ends lane ≠ .faulted panic := by
  intro hfault
  rcases ends_of_runs h with ⟨_, hstop⟩ | ⟨_, hwait⟩
  · obtain ⟨result, hresult⟩ := hends lane hlane
    rw [hstop lane hlane, hresult] at hfault
    cases hfault
  · obtain ⟨next, hnext⟩ := hwait lane hlane
    rw [hnext] at hfault
    cases hfault

/-- **A block that follows a run that ends well is never poisoned** and has no fault. -/
theorem Follows.not_poisoned (h : Follows callbacks lanes first stages stops crew calls log)
    (hends : Block.EndWell lanes stops) : crew.poisoned = false ∧ crew.fault = none := by
  obtain ⟨scene, history, _, _, hruns, hwithin⟩ := h
  constructor
  · cases hp : crew.poisoned with
    | false => rfl
    | true =>
      obtain ⟨lane, hlane, panic, hfault⟩ := hwithin.poisoned hp
      exact absurd hfault (not_faulted_of_runs hends hruns hlane panic)
  · cases hf : crew.fault with
    | none => rfl
    | some panic =>
      obtain ⟨lane, hlane, hfault⟩ := hwithin.fault panic hf
      exact absurd hfault (not_faulted_of_runs hends hruns hlane panic)

/-- Where a lane of a run that ends well can stand. -/
theorem Within.station_of_ends {scene : Scene callbacks lanes β}
    {history : List (Nat × Request σ α)} (h : Within scene history crew calls log)
    (hp : crew.poisoned = false) {lane : Nat} (hlane : lane < lanes) :
    ∃ station, crew.stations[lane]? = some station ∧ scene.Places lane station history log ∧
      ((∃ program, station = .running program) ∨ (∃ next, station = .arrived next) ∨
        ∃ result, station = .finished result ∧ scene.ends lane = .finished result) := by
  obtain ⟨station, hs, hplace⟩ := h.places lane hlane
  refine ⟨station, hs, hplace, ?_⟩
  obtain ⟨rest, tail, _, hstanding, _⟩ := hplace
  generalize scene.ends lane = stop at hstanding ⊢
  cases hstanding with
  | running _ => exact .inl ⟨_, rfl⟩
  | arrived next => exact .inr (.inl ⟨next, rfl⟩)
  | finished result => exact .inr (.inr ⟨result, rfl, rfl⟩)
  | refused panic => exact absurd (h.unwound lane _ hs) (by simp [hp])
  | faulted panic => exact absurd (h.unwound lane _ hs) (by simp [hp])
  | released next => exact absurd (h.unwound lane _ hs) (by simp [hp])

/-- **At any time a lane has done a first part of its course.** -/
theorem Follows.own_isPrefix (h : Follows callbacks lanes first stages stops crew calls log)
    (hends : Block.EndWell lanes stops) {lane : Nat} (hlane : lane < lanes) :
    own lane log <+: Stage.course stages lane := by
  have hp := (h.not_poisoned hends).1
  obtain ⟨scene, history, rfl, _, hruns, hwithin⟩ := h
  obtain ⟨station, hs, ⟨rest, tail, hstage, hstanding, hown⟩, _⟩ :=
    hwithin.station_of_ends hp hlane
  rw [hown, Scene.stages, Stage.course_append _ (List.cons_ne_nil _ _)]
  apply (List.prefix_append_right_inj _).mpr
  rcases ends_of_runs hruns with ⟨hnil, hstop⟩ | ⟨hfuture, hwait⟩
  · -- in the last stage the lane ends
    obtain ⟨result, hresult⟩ := hends lane hlane
    rw [hstop lane hlane, hresult] at hstanding
    rw [hnil, Stage.course, hstage, List.map_append, List.append_assoc]
    apply (List.prefix_append_right_inj _).mpr
    cases hstanding with
    | running _ => exact List.nil_prefix
    | finished _ => exact List.prefix_refl _
  · -- in any other stage it comes to a barrier
    obtain ⟨next, hnext⟩ := hwait lane hlane
    rw [hnext] at hstanding
    rw [Stage.course_cons _ hfuture, hstage, List.map_append, List.append_assoc, List.append_assoc]
    apply (List.prefix_append_right_inj _).mpr
    cases hstanding with
    | running _ => exact List.nil_prefix
    | arrived _ => exact List.prefix_append _ _
    | released _ => exact List.prefix_append _ _

/-- **A block that is over has done all of its run.** -/
theorem Follows.of_isOver (h : Follows callbacks lanes first stages stops crew calls log)
    (hends : Block.EndWell lanes stops) (hover : crew.isOver = true) :
    (∀ lane < lanes, own lane log = Stage.course stages lane) ∧
      (∀ lane < lanes, ∃ result, crew.stations[lane]? = some (.finished result) ∧
        stops lane = .finished result) ∧
      crew.slots = (first.after (stages.flatMap fun stage => stage.all lanes)).slots := by
  have hp := (h.not_poisoned hends).1
  obtain ⟨scene, history, rfl, hfirst, hruns, hwithin⟩ := h
  have hfinished : ∀ lane < lanes, ∃ result, crew.stations[lane]? = some (.finished result) ∧
      scene.ends lane = .finished result ∧ scene.Places lane (.finished result) history log := by
    intro lane hlane
    obtain ⟨station, hs, hplace, hstation⟩ := hwithin.station_of_ends hp hlane
    have hstop := List.all_eq_true.mp hover station (List.mem_of_getElem? hs)
    rcases hstation with ⟨program, rfl⟩ | ⟨next, rfl⟩ | ⟨result, rfl, hresult⟩
    · cases hstop
    · cases hstop
    · exact ⟨result, hs, hresult, hplace⟩
  -- a scene in which all lanes come to their end is the last one
  rcases ends_of_runs hruns with ⟨hnil, hstop⟩ | ⟨_, hwait⟩
  swap
  · obtain ⟨next, hnext⟩ := hwait 0 hruns.lanes_pos
    obtain ⟨result, _, hresult, _⟩ := hfinished 0 hruns.lanes_pos
    rw [hnext] at hresult
    cases hresult
  have hdone : ∀ lane < lanes, scene.stage lane = own lane history ∧
      own lane log = Stage.deeds scene.past lane ++ ((own lane history).map .asks ++ [.ends]) := by
    intro lane hlane
    obtain ⟨result, _, hresult, rest, tail, hstage, hstanding, hown⟩ := hfinished lane hlane
    rw [hresult] at hstanding
    cases hstanding
    rw [List.append_nil] at hstage
    exact ⟨hstage, hown⟩
  refine ⟨fun lane hlane => ?_, fun lane hlane => ?_, ?_⟩
  · obtain ⟨hstage, hown⟩ := hdone lane hlane
    rw [hown, Scene.stages, Stage.course_append _ (List.cons_ne_nil _ _), hnil, Stage.course, hstage]
  · obtain ⟨result, hs, hresult, _⟩ := hfinished lane hlane
    exact ⟨result, hs, (hstop lane hlane).symm.trans hresult⟩
  · rw [hwithin.slots, Stage.after_eq_all scene.apart hwithin.history_lt
      (fun lane hlane => (hdone lane hlane).1.symm), hfirst, Scene.stages, hnil,
      List.flatMap_append, Sight.after_append, List.flatMap_cons, List.flatMap_nil, List.append_nil]

/-- **A block that is not over can go on.** -/
theorem Follows.exists_deed (h : Follows callbacks lanes first stages stops crew calls log)
    (hends : Block.EndWell lanes stops) (hover : crew.isOver = false) :
    ∃ lane < lanes, (crew.deed? lane).isSome = true := by
  have hp := (h.not_poisoned hends).1
  obtain ⟨scene, history, rfl, hfirst, hruns, hwithin⟩ := h
  have hrunning : ∃ lane < lanes, ∃ program, crew.stations[lane]? = some (.running program) := by
    rcases ends_of_runs hruns with ⟨_, hstop⟩ | ⟨_, hwait⟩
    · -- in the last stage nobody waits, so a lane that is not over is under way
      obtain ⟨lane, hlane, station, hs, hgoing⟩ := hwithin.exists_station hover
      obtain ⟨station', hs', ⟨rest, tail, _, hstanding, _⟩, hstation⟩ :=
        hwithin.station_of_ends hp hlane
      obtain rfl : station' = station := Option.some.inj (hs'.symm.trans hs)
      obtain ⟨result, hresult⟩ := hends lane hlane
      rw [hstop lane hlane, hresult] at hstanding
      rcases hstation with ⟨program, rfl⟩ | ⟨next, rfl⟩ | ⟨result', rfl, _⟩
      · exact ⟨lane, hlane, program, hs⟩
      · cases hstanding
      · exact absurd rfl hgoing
    · -- in any other stage nobody is over, and not all have arrived
      obtain ⟨lane, hlane, station, hs, hgoing⟩ := hwithin.exists_station hwithin.shut
      obtain ⟨station', hs', _, hstation⟩ := hwithin.station_of_ends hp hlane
      obtain rfl : station' = station := Option.some.inj (hs'.symm.trans hs)
      obtain ⟨next, hnext⟩ := hwait lane hlane
      rcases hstation with ⟨program, rfl⟩ | ⟨next, rfl⟩ | ⟨result, rfl, hresult⟩
      · exact ⟨lane, hlane, program, hs⟩
      · exact absurd rfl hgoing
      · rw [hnext] at hresult
        cases hresult
  obtain ⟨lane, hlane, program, hs⟩ := hrunning
  refine ⟨lane, hlane, ?_⟩
  rw [deed?, hs]
  cases program <;> rfl

/-- What is done is not more than what there is to do. -/
theorem Follows.length_le (h : Follows callbacks lanes first stages stops crew calls log)
    (hends : Block.EndWell lanes stops) :
    log.length ≤ ((List.range lanes).flatMap (Stage.course stages)).length := by
  have hlt : ∀ entry ∈ log, entry.1 ∈ List.range lanes := by
    obtain ⟨_, _, _, _, _, hwithin⟩ := h
    exact fun entry hentry => List.mem_range.mpr (hwithin.log_lt entry hentry)
  have hperm := (perm_flatMap_own List.nodup_range hlt).length_eq
  rw [List.length_map] at hperm
  rw [hperm, List.length_flatMap, List.length_flatMap]
  apply List.sum_le_sum
  intro lane hlane
  exact (h.own_isPrefix hends (List.mem_range.mp hlane)).length_le

/-- **Every block that follows a run that ends well can be brought to its end.** -/
theorem Follows.exists_run {store : Store α}
    (h : Follows callbacks lanes first stages stops crew store.journal.calls log)
    (hends : Block.EndWell lanes stops) :
    ∃ turns, (crew.run callbacks store turns).1.isOver = true := by
  have hone : ∀ {crew : Crew σ α β} {lane : Nat}, (crew.deed? lane).isSome = true →
      ((crew.deed? lane).toList.map fun deed => (lane, deed)).length = 1 := by
    intro crew lane hdeed
    obtain ⟨deed, hdeed⟩ := Option.isSome_iff_exists.mp hdeed
    rw [hdeed]
    rfl
  -- each turn of a lane that can go on leaves less to do
  generalize hleft : ((List.range lanes).flatMap (Stage.course stages)).length - log.length = left
  induction left generalizing crew store log with
  | zero =>
    refine ⟨[], ?_⟩
    cases hover : crew.isOver with
    | true => exact hover
    | false =>
      obtain ⟨lane, _, hdeed⟩ := h.exists_deed hends hover
      have hlength := (h.turn lane).length_le hends
      rw [List.length_append, hone hdeed] at hlength
      omega
  | succ left ih =>
    cases hover : crew.isOver with
    | true => exact ⟨[], hover⟩
    | false =>
      obtain ⟨lane, _, hdeed⟩ := h.exists_deed hends hover
      obtain ⟨turns, hturns⟩ := ih (h.turn lane) (by rw [List.length_append, hone hdeed]; omega)
      exact ⟨lane :: turns, hturns⟩

end Crew

end BlockMachine
