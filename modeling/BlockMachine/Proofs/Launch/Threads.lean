import BlockMachine.Proofs.Launch.Agreement
import BlockMachine.Proofs.Launch.ThreadFaults
import Mathlib.Data.List.Induction

/-!
# What threads leave of a launch

A host that starts every lane brings a launch of threads to the end of a `Grid`, so what holds at the end of every
`Grid` holds at the end of every launch of threads.

* `ThreadedGrid.exists_endsAs` — a threaded launch that has ended has ended as some `Grid` has.
* `ThreadedGrid.exists_over` — every threaded launch can be brought to its end whose lanes wait for each other.
* `ThreadedGrid.agrees_of_grid` — what all runs of a `Grid` have in common, threads have in common with them.
* `threads_agree` — the threads of an independent launch leave what the launch leaves.
-/

set_option autoImplicit false

namespace BlockMachine

open History

variable {σ α : Type}

namespace ThreadedGrid

variable {scheduling : Scheduling} {spawner : Spawner} {kernel : Kernel σ α} {geometry : Geometry} {store : Store α}
  {places : List (Nat × Team.Turn)}

/-! ## The same end -/

/-- A threaded launch that has ended as a `Grid` has, whose lanes have done the same. -/
structure EndsAs (grid : ThreadedGrid σ α) (coarse : Grid σ α) (log : List ((Nat × Nat) × Deed σ α)) : Prop where
  ended : coarse.isOver = true
  store : coarse.store = grid.store
  finished : ∀ block lane, coarse.Finished block lane → grid.Finished block lane
  /-- It answers without an error if the `Grid` does, -/
  well : grid.Answers (.ok ()) ↔ coarse.Answers (.ok ())
  /-- and otherwise with a panic that a lane has raised. -/
  blames : ∀ failure, grid.Answers (.error failure) → ∃ block lane panic,
    coarse.Raises log block lane panic ∧ panic.isRelease = false ∧
      failure = .error (.kernelFault block panic.report)

/-- A block of a host that starts every lane fails with a fault. -/
theorem fault?_of_failure (hwilling : ∀ block lane, spawner.refuses block lane = none) {block : Nat}
    {error : LibraryError}
    (hfailure : (run scheduling spawner kernel geometry store places).failure? block = some error) :
    ∃ panic, (run scheduling spawner kernel geometry store places).fault? block = some panic ∧
      error = .kernelFault block panic.report := by
  rcases failure_cases hfailure with hfault | ⟨lane, cause, hrefuses, _⟩
  · exact hfault
  · rw [hwilling] at hrefuses
    cases hrefuses

/-- A block of a host that starts every lane has started as a whole. -/
theorem refusal_eq_none_of_willing (hwilling : ∀ block lane, spawner.refuses block lane = none) {block : Nat}
    {team : Team σ α Unit} (hteam : (run scheduling spawner kernel geometry store places).team? block = some team) :
    team.refusal = none := by
  cases hrefusal : team.refusal with
  | none => rfl
  | some cause =>
    obtain ⟨lane, hrefuses⟩ := exists_refuses hteam hrefusal
    rw [hwilling] at hrefuses
    cases hrefuses

/-- A block of a threaded launch that has ended has failed if and only if it has a fault in the `Grid`. -/
theorem Mirrors.fault?_eq_none_iff {steps : List (Nat × Nat)}
    (h : Mirrors (run scheduling spawner kernel geometry store places)
      (Grid.run scheduling kernel geometry store steps))
    (hwilling : ∀ block lane, spawner.refuses block lane = none)
    (hover : (run scheduling spawner kernel geometry store places).isOver = true) (block : Nat) :
    (Grid.run scheduling kernel geometry store steps).fault? block = none ↔
      (run scheduling spawner kernel geometry store places).failure? block = none := by
  unfold Grid.fault? failure?
  cases hteam : (run scheduling spawner kernel geometry store places).team? block with
  | none =>
    rw [h.crew?_of_none hteam]
    exact ⟨fun _ => rfl, fun _ => rfl⟩
  | some team =>
    obtain ⟨rounds, crew, hcrew, hteamMirrors⟩ := h.crew?_of_some hteam
    obtain ⟨segment, habreast⟩ := Grid.abreast_of_crew? hcrew
    have hstarted := refusal_eq_none_of_willing hwilling hteam
    rw [hcrew, Option.bind_some, Option.bind_some, Team.failure?_eq_none hstarted,
      hteamMirrors.fault_eq_none_iff habreast ((isOver_iff.mp hover).1 block team hteam) hstarted]

/-- **A threaded launch that has ended has ended as some `Grid` has**, if its host starts every lane. -/
theorem exists_endsAs (hwilling : ∀ block lane, spawner.refuses block lane = none)
    (hover : (run scheduling spawner kernel geometry store places).isOver = true) :
    ∃ steps, EndsAs (run scheduling spawner kernel geometry store places)
        (Grid.run scheduling kernel geometry store steps) (Grid.log scheduling kernel geometry store steps) ∧
      Grid.log scheduling kernel geometry store steps = log scheduling spawner kernel geometry store places := by
  obtain ⟨steps, hmirrors, hlog⟩ := exists_run_grid scheduling spawner kernel geometry store places
  obtain ⟨hteams, hends⟩ := isOver_iff.mp hover
  have hfaults := hmirrors.fault?_eq_none_iff hwilling hover
  refine ⟨steps, ⟨Grid.isOver_iff.mpr ⟨fun block _ crew hcrew => ?_, hends.imp (fun hbegun block hblock => ?_) ?_⟩,
    hmirrors.store, fun block lane hfinished => ?_,
    ⟨fun hwell => .ok fun block => ?_, fun hwell => .ok fun block => ?_⟩, fun failure hfails => ?_⟩, hlog⟩
  · obtain ⟨rounds, team, hteam, hteamMirrors⟩ := hmirrors.team?_of_some hcrew
    exact hteamMirrors.crew_isOver (hteams block team hteam) (refusal_eq_none_of_willing hwilling hteam)
  · obtain ⟨team, hteam⟩ := Option.isSome_iff_exists.mp (hbegun block (hmirrors.length ▸ hblock))
    obtain ⟨rounds, crew, hcrew, _⟩ := hmirrors.crew?_of_some hteam
    exact Option.isSome_iff_exists.mpr ⟨crew, hcrew⟩
  · rintro ⟨block, hfailure⟩
    have hfault : (Grid.run scheduling kernel geometry store steps).fault? block ≠ none :=
      fun hnone => by rw [(hfaults block).mp hnone] at hfailure; cases hfailure
    obtain ⟨panic, hpanic⟩ := Option.ne_none_iff_exists'.mp hfault
    obtain ⟨crew, hcrew, _⟩ := Option.bind_eq_some_iff.mp hpanic
    exact ⟨block, Grid.lt_of_crew? hcrew, Option.isSome_iff_exists.mpr ⟨panic, hpanic⟩⟩
  · obtain ⟨crew, hcrew, hstation⟩ := hfinished
    obtain ⟨rounds, team, hteam, hteamMirrors⟩ := hmirrors.team?_of_some hcrew
    exact ⟨team, hteam, hteamMirrors.thread_of_finished hstation⟩
  · cases hwell with
    | ok hnone => exact (hfaults block).mpr (hnone block)
  · cases hwell with
    | ok hnone => exact (hfaults block).mp (hnone block)
  · cases hfails with
    | failed block error hfailure =>
      obtain ⟨panic, hfault, rfl⟩ := fault?_of_failure hwilling hfailure
      obtain ⟨team, hteam, hteamFault⟩ := Option.bind_eq_some_iff.mp hfault
      obtain ⟨rounds, crew, hcrew, hteamMirrors⟩ := hmirrors.crew?_of_some hteam
      obtain ⟨segment, habreast⟩ := Grid.abreast_of_crew? hcrew
      obtain ⟨hrelease, lane, hthread⟩ := hteamMirrors.kept.fault panic hteamFault
      exact ⟨block, lane, panic, ⟨crew, hcrew, habreast.raises (hteamMirrors.station_of_unwound hthread) hrelease⟩,
        hrelease, rfl⟩

/-! ## The way there -/

/-- The next block in the order of a launch has begun, or it can do so. -/
theorem exists_begun (hslots : ∃ slots, kernel.slots geometry.threads = .ok slots) {block : Nat}
    {done rest : List Nat} (horder : scheduling.order geometry.blocks = done ++ block :: rest)
    (hdone : ∀ other ∈ done, (run scheduling spawner kernel geometry store places).isDone other = true) :
    ∃ more team, (run scheduling spawner kernel geometry store (places ++ more)).team? block = some team ∧
      ∀ other ∈ done, (run scheduling spawner kernel geometry store (places ++ more)).isDone other = true := by
  cases hteam : (run scheduling spawner kernel geometry store places).team? block with
  | some team => exact ⟨[], team, by rwa [List.append_nil], by rwa [List.append_nil]⟩
  | none =>
    have hlength := (orderly_run scheduling spawner kernel geometry store places).length
    have hblock : block < geometry.blocks :=
      Grid.mem_order.mp (horder ▸ List.mem_append_right done List.mem_cons_self)
    obtain ⟨slots, hslots⟩ := hslots
    have hturn : run scheduling spawner kernel geometry store (places ++ [(block, .hosts)]) =
        (run scheduling spawner kernel geometry store places).turn scheduling spawner kernel geometry
          (block, .hosts) := run_append ..
    refine ⟨[(block, .hosts)], Team.start slots (kernel.lanes geometry block), ?_, fun other hother => ?_⟩
    · rw [hturn, turn, hteam]
      simp only [mayBegin_of_done (hlength ▸ horder) hdone, if_true, begun, hslots]
      rw [team?_set _ _ (hlength ▸ hblock), if_pos rfl]
    · rw [hturn]
      exact isDone_turn (hdone other hother) _

/-- The blocks of a launch can be brought to their ends in its order, as long as none of them has a fault. -/
theorem exists_done (hwilling : ∀ block lane, spawner.refuses block lane = none)
    (hmatched : Matched scheduling spawner kernel geometry store)
    (hslots : ∃ slots, kernel.slots geometry.threads = .ok slots) (places : List (Nat × Team.Turn))
    (done : List Nat) : ∀ rest, scheduling.order geometry.blocks = done ++ rest →
      ∃ more, (∃ block panic,
          (run scheduling spawner kernel geometry store (places ++ more)).fault? block = some panic) ∨
        ∀ block ∈ done, (run scheduling spawner kernel geometry store (places ++ more)).isDone block = true := by
  induction done using List.reverseRecOn with
  | nil => exact fun _ _ => ⟨[], .inr nofun⟩
  | append_singleton done block ih =>
    intro rest horder
    rw [List.append_assoc] at horder
    obtain ⟨first, ⟨faulty, panic, hfault⟩ | hdone⟩ := ih _ horder
    · exact ⟨first, .inl ⟨faulty, panic, hfault⟩⟩
    obtain ⟨second, team, hteam, hdone⟩ := exists_begun hslots horder hdone
    obtain ⟨third, team', hover, hrun⟩ := exists_over_of_team? hmatched hteam
    have hself := (hrun block).trans (if_pos rfl)
    rw [List.append_assoc, List.append_assoc] at hself
    refine ⟨first ++ (second ++ third), ?_⟩
    cases hfailure : team'.failure? block with
    | some error =>
      have hfails : (run scheduling spawner kernel geometry store (places ++ (first ++ (second ++ third)))).failure?
          block = some error := by rw [failure?, hself, Option.bind_some, hfailure]
      obtain ⟨panic, hfault, _⟩ := fault?_of_failure hwilling hfails
      exact .inl ⟨block, panic, hfault⟩
    | none =>
      refine .inr fun other hother => ?_
      by_cases he : block = other
      · subst he
        exact isDone_iff.mpr ⟨team', hself, hover, hfailure⟩
      · -- the blocks before it have rested
        have hmem := (List.mem_append.mp hother).resolve_right fun hlast => he (List.mem_singleton.mp hlast).symm
        have hstays := (hrun other).trans (if_neg he)
        rw [List.append_assoc, List.append_assoc] at hstays
        rw [isDone, hstays]
        exact hdone other hmem

/-- **Every threaded launch can be brought to its end** whose lanes wait for each other, if its host starts all of
them. -/
theorem exists_over (hwilling : ∀ block lane, spawner.refuses block lane = none)
    (hmatched : Matched scheduling spawner kernel geometry store)
    (hslots : ∃ slots, kernel.slots geometry.threads = .ok slots) (places : List (Nat × Team.Turn)) :
    ∃ more, (run scheduling spawner kernel geometry store (places ++ more)).isOver = true := by
  obtain ⟨first, ⟨block, panic, hfault⟩ | hdone⟩ :=
    exists_done hwilling hmatched hslots places (scheduling.order geometry.blocks) [] (List.append_nil _).symm
  · obtain ⟨second, hover⟩ := exists_over_of_fault hmatched hfault
    exact ⟨first ++ second, by rwa [← List.append_assoc]⟩
  · have hlength := (orderly_run scheduling spawner kernel geometry store (places ++ first)).length
    have hall : ∀ block < geometry.blocks, ∃ team,
        (run scheduling spawner kernel geometry store (places ++ first)).team? block = some team ∧
          team.isOver = true := by
      intro block hblock
      obtain ⟨team, hteam, hover, _⟩ := isDone_iff.mp (hdone block (Grid.mem_order.mpr hblock))
      exact ⟨team, hteam, hover⟩
    refine ⟨first, isOver_iff.mpr ⟨fun block team hteam => ?_, .inl fun block hblock => ?_⟩⟩
    · obtain ⟨team', hteam', hover⟩ := hall block (hlength ▸ lt_of_team? hteam)
      rwa [Option.some.inj (hteam.symm.trans hteam')]
    · obtain ⟨team, hteam, _⟩ := hall block (hlength ▸ hblock)
      exact Option.isSome_iff_exists.mpr ⟨team, hteam⟩

/-! ## What all runs have in common -/

/-- What all runs of a threaded launch have in common: `output` is what they leave, and `course` is what each lane
does. -/
structure Agrees (scheduling : Scheduling) (spawner : Spawner) (kernel : Kernel σ α) (geometry : Geometry)
    (store : Store α) (output : Array α) (course : Nat → Nat → List (Deed σ α)) : Prop where
  /-- Each can be brought to its end, -/
  ends : ∀ places, ∃ more, (run scheduling spawner kernel geometry store (places ++ more)).isOver = true
  /-- and then it answers without an error, -/
  answers : ∀ places, (run scheduling spawner kernel geometry store places).isOver = true →
    ∀ answer, (run scheduling spawner kernel geometry store places).Answers answer ↔ answer = .ok ()
  /-- leaves the output, -/
  output : ∀ places, (run scheduling spawner kernel geometry store places).isOver = true →
    (run scheduling spawner kernel geometry store places).store.output = output
  /-- and every lane of the grid has come to its normal end on its course. -/
  lanes : ∀ places, (run scheduling spawner kernel geometry store places).isOver = true →
    ∀ block < geometry.blocks, ∀ lane < geometry.threads,
      (run scheduling spawner kernel geometry store places).Finished block lane ∧
        own lane (Grid.ofBlock block (log scheduling spawner kernel geometry store places)) = course block lane
  /-- No other lane does anything. -/
  only : ∀ places, ∀ entry ∈ log scheduling spawner kernel geometry store places,
    entry.1.1 < geometry.blocks ∧ entry.1.2 < geometry.threads

/-- **What all runs of a `Grid` have in common, threads have in common with them**, if their host starts all of them. -/
theorem agrees_of_grid (hwilling : ∀ block lane, spawner.refuses block lane = none)
    (hslots : ∃ slots, kernel.slots geometry.threads = .ok slots)
    (hmatched : Grid.Matched scheduling kernel geometry store) {output : Array α}
    {course : Nat → Nat → List (Deed σ α)} (h : Grid.Agrees scheduling kernel geometry store output course) :
    Agrees scheduling spawner kernel geometry store output course := by
  refine ⟨exists_over hwilling (matched_of_grid hmatched) hslots, fun places hover answer => ?_,
    fun places hover => ?_, fun places hover block hblock lane hlane => ?_, fun places => ?_⟩
  · obtain ⟨steps, hends, _⟩ := exists_endsAs hwilling hover
    have hwell := hends.well.mpr ((h.answers steps hends.ended _).mpr rfl)
    refine ⟨fun hanswers => ?_, fun hok => hok ▸ hwell⟩
    cases hwell with
    | ok hnone =>
      cases hanswers with
      | ok _ => rfl
      | failed block error hfailure =>
        rw [hnone block] at hfailure
        cases hfailure
  · obtain ⟨steps, hends, _⟩ := exists_endsAs hwilling hover
    rw [← hends.store]
    exact h.output steps hends.ended
  · obtain ⟨steps, hends, hlog⟩ := exists_endsAs hwilling hover
    obtain ⟨hfinished, hcourse⟩ := h.lanes steps hends.ended block hblock lane hlane
    rw [← hlog]
    exact ⟨hends.finished block lane hfinished, hcourse⟩
  · obtain ⟨steps, _, hlog⟩ := exists_run_grid scheduling spawner kernel geometry store places
    rw [← hlog]
    exact h.only steps

end ThreadedGrid

/-- **The threads of an independent launch** leave what it leaves when its blocks run in an order that its scheduling
admits, whatever turns the threads take and whatever policy the blocks are scheduled by, if the host starts all of
them. -/
theorem threads_agree {config : LaunchConfig} {kernel : Kernel σ α} {blocks threads : Nat} {store : Store α}
    (hvalid : config.validate = .ok ()) (hthreads : 0 < threads) (hmax : threads ≤ maxThreadsPerBlock)
    (hzero : kernel.callbacks.element.size = 0 → ∀ a b : α, a = b)
    (h : Grid.Independent kernel ⟨blocks, threads, config.capability.supportsWideCopy⟩ store) {spawner : Spawner}
    (hwilling : ∀ block lane, spawner.refuses block lane = none) {order : Nat → List Nat}
    (horder : (order blocks).Perm (List.range blocks))
    (hadmits : config.scheduling = .parallel ∨ config.scheduling.order blocks = order blocks) :
    ∃ left course, launchInOrder order config kernel blocks threads store = (.ok (), left) ∧
      ∀ scheduling, ThreadedGrid.Agrees scheduling spawner kernel ⟨blocks, threads, config.capability.supportsWideCopy⟩
        { store with
          journal := store.journal.note (.launch blocks threads scheduling config.capability) }
        left.output course := by
  obtain ⟨plan, hends⟩ := h.exists_plan hthreads
  obtain ⟨places, left, hover, hlaunch, hleft⟩ := Grid.exists_run_launchInOrder hvalid hthreads hmax hends
    horder hadmits
  let begun : Scheduling → Store α := fun scheduling => { store with
    journal := store.journal.note (.launch blocks threads scheduling config.capability) }
  have hcalls : ∀ scheduling, (begun scheduling).journal.calls = store.journal.calls := fun _ => rfl
  obtain ⟨course, hagrees⟩ : ∃ course, ∀ scheduling, Grid.Agrees scheduling kernel
      ⟨blocks, threads, config.capability.supportsWideCopy⟩ (begun scheduling) left.output course := by
    rw [hleft]
    exact ⟨_, fun scheduling => Grid.agrees_of_plan hzero hends (h.writesApart plan hends)
      (hcalls config.scheduling) hover (hcalls scheduling) rfl scheduling⟩
  exact ⟨left, course, hlaunch, fun scheduling => ThreadedGrid.agrees_of_grid hwilling h.slots
    (Grid.matched_of_plan plan hends (hcalls scheduling) scheduling) (hagrees scheduling)⟩

end BlockMachine
