import BlockMachine.Proofs.Interleaving.TeamWeight

/-!
# Turns of a team echo in a crew

Whatever a thread does, the crew that mirrors its team does too, or it sees nothing of it.  What it does not see
brings the team nearer to a state in which the crew must see something.

* `Team.Echoes` — what a crew sees of a turn of a team.
* `Team.Mirrors.echoes` — every turn of a team echoes in a crew that mirrors it.
-/

set_option autoImplicit false

namespace BlockMachine

variable {σ α β : Type}

namespace Team

/-! ## Echoes -/

/-- Whether nothing happens in a turn. -/
def Rests (team : Team σ α β) : Turn → Prop
  | .hosts =>
    if team.refusal.isSome then team.room.step team.host = team.room
    else ∀ program, team.threads[team.started]? ≠ some (.awaited program)
  | .steps lane =>
    match team.threads[lane]? with
    | some (.running _) | some (.reporting _) => False
    | some (.mustering _) | some (.waiting _) | some (.poisoning _) => team.room.step lane = team.room
    | _ => True
  | .wakes _ => True

/-- What a crew sees of a turn of the team that it mirrors: the team and the store behind it, and what a lane does
in it. -/
inductive Echoes (callbacks : Callbacks σ α) (team : Team σ α β) (turn : Turn) (crew : Crew σ α β)
    (store : Store α) : Team σ α β × Store α → Option (Nat × Deed σ α) → Prop
  | rests (h : team.Rests turn) : Echoes callbacks team turn crew store (team, store) none
  /-- The crew sees nothing. -/
  | silent {team' : Team σ α β} (rounds : Nat) (hmirrors : Mirrors rounds team' crew)
    (hlighter : (∃ lane, turn = .wakes lane) ∨ team'.weight < team.weight) :
    Echoes callbacks team turn crew store (team', store) none
  /-- It is a turn of a lane of the crew. -/
  | heard {team' : Team σ α β} {crew' : Crew σ α β} {store' : Store α} {deed : Option (Nat × Deed σ α)}
    (rounds lane : Nat) (hlive : ¬ crew.Rests lane) (hturn : crew.turn callbacks lane store = (crew', store'))
    (hmirrors : Mirrors rounds team' crew') (hdeed : deed = (crew.deed? lane).map fun deed => (lane, deed)) :
    Echoes callbacks team turn crew store (team', store') deed

variable {rounds lane : Nat} {team team' : Team σ α β} {crew crew' : Crew σ α β} {thread thread' : Thread σ α β}
  {caller caller' : Caller} {station station' : Station σ α β} {callbacks : Callbacks σ α} {spawner : Spawner}
  {block : Nat} {store store' : Store α} {room' : BarrierRoom}

/-! ### The host -/

theorem Kept.withRoom (h : team.Kept) (room' : BarrierRoom) : ({ team with room := room' } : Team σ α β).Kept :=
  ⟨h.started, h.refused, h.fault, h.told⟩

theorem Mirrors.exists_host (h : Mirrors rounds team crew) :
    ∃ host, team.room.callers[team.threads.length]? = some host :=
  ⟨_, List.getElem?_eq_getElem (by rw [h.attended.length_eq]; exact Nat.lt_succ_self _)⟩

/-- The host poisons the barrier. -/
theorem Mirrors.host_poisons (h : Mirrors rounds team crew) {host : Caller}
    (hhost : team.room.callers[team.threads.length]? = some host) (hsome : team.refusal.isSome = true)
    (hphase : host.phase = .poisoning ∨ host.phase = .exposing) :
    Echoes callbacks team .hosts crew store ({ team with room := team.room.step team.host }, store) none := by
  obtain ⟨changed, hpasses, hstep⟩ := h.attended.poison_step hhost hphase
  have hrank := rank_of_host hhost
  rw [if_pos hsome] at hrank
  have hlanes : ∀ other < team.threads.length, ∀ sibling',
      (team.room.step team.host).callers[other]? = some sibling' → ∃ sibling,
        team.room.callers[other]? = some sibling ∧ (sibling' = sibling ∨ sibling' = sibling.notified) :=
    fun other hlt sibling' => hpasses.others other sibling' (Nat.ne_of_lt hlt)
  -- behind the step the barrier is poisoned
  have hmirrors : ∀ {after : Bool}, (team.room.step team.host).barrier.poisoned = after → after = true →
      HostSeat team.refusal true changed →
        Mirrors rounds { team with room := team.room.step team.host } crew := by
    rintro _ hp rfl hseat
    refine h.hosts (h.kept.withRoom _) rfl rfl hpasses.attended (fun _ => hp) hlanes (fun caller hcaller => ?_)
      fun _ => .inl hsome
    obtain rfl := Option.some.inj (hpasses.own.symm.trans hcaller)
    exact hp.symm ▸ hseat
  generalize hpoisoned : (team.room.step team.threads.length).barrier.poisoned = after at hstep
  cases hstep with
  | rests hstep =>
    have hsame : ({ team with room := team.room.step team.host } : Team σ α β) = team := by
      rw [show team.room.step team.host = team.room from hstep]
    rw [hsame]
    refine .rests ?_
    unfold Rests
    rw [if_pos hsome]
    exact hstep
  | closes hnow =>
    refine .silent rounds (hmirrors hpoisoned rfl (.poisoning hsome (.inr rfl))) (.inr ?_)
    refine h.lighter_of_host hhost rfl hpasses hsome (.inr ⟨?_, ?_⟩)
    · rw [hnow]
      rfl
    · rw [hrank, hnow]
      exact Nat.lt_succ_self _
  | exposes hnow =>
    refine .silent rounds (hmirrors hpoisoned rfl (.done hsome rfl rfl)) (.inr ?_)
    refine h.lighter_of_host hhost rfl hpasses hsome (.inl ?_)
    rw [hrank, hnow]
    show 0 + team.room.callers.length ≤ team.room.callers.length + 2
    omega

/-- The host starts a lane. -/
theorem Mirrors.host_starts {program : Lane σ α β} (h : Mirrors rounds team crew) (hnone : team.refusal = none)
    (hthread : team.threads[team.started]? = some (.awaited program)) :
    Echoes callbacks team .hosts crew store
      ({ team.calling team.started (.mustering program) .arriving with started := team.started + 1 }, store)
      none := by
  obtain ⟨caller, station, hcaller, hstation, hseat⟩ := h.exists_seat hthread
  cases hseat with
  | awaited _ hidle hresults hrounds =>
    have hpasses := h.attended.call hcaller hidle (.inl rfl)
    refine .silent rounds (h.moved_alone hthread hstation rfl rfl rfl (h.kept.starts hthread rfl rfl hnone rfl) hpasses
      (.mustering program (.comes ⟨rfl, ?_⟩) hresults) id (.inl ?_)) (.inr ?_)
    · rw [hrounds]
      exact congrArg List.length hresults
    · exact congrArg Barrier.poisoned BarrierRoom.call_barrier
    · refine h.lighter_of_lane (.mustering program) hthread hcaller rfl rfl hpasses ?_ fun hholds => ?_
      · exact Nat.lt_succ_self _
      · rw [hidle] at hholds
        cases hholds

/-- The host cannot start a lane, and turns to the barrier. -/
theorem Mirrors.host_gives_up {program : Lane σ α β} (h : Mirrors rounds team crew) (hnone : team.refusal = none)
    (hthread : team.threads[team.started]? = some (.awaited program)) (cause : String) :
    Echoes callbacks team .hosts crew store
      ({ team with room := team.room.call team.host .poisoning, refusal := some cause }, store) none := by
  obtain ⟨host, hhost⟩ := h.exists_host
  have hrank := rank_of_host hhost
  rw [hnone, if_neg (by exact Bool.false_ne_true)] at hrank
  cases h.host host hhost with
  | poisoning hsome _ =>
    rw [hnone] at hsome
    cases hsome
  | done hsome _ _ =>
    rw [hnone] at hsome
    cases hsome
  | starting _ hidle =>
    have hpasses := h.attended.call hhost hidle (.inr rfl)
    have hbarrier : (team.room.call team.threads.length .poisoning).barrier.poisoned = team.room.barrier.poisoned :=
      congrArg Barrier.poisoned BarrierRoom.call_barrier
    refine .silent rounds (h.hosts ⟨h.kept.started, fun _ => ?_, h.kept.fault, h.kept.told⟩ rfl rfl hpasses.attended
      (fun hp => hbarrier.trans hp) (fun other hlt sibling' => hpasses.others other sibling' (Nat.ne_of_lt hlt))
      (fun caller hcaller => ?_) fun _ => .inl rfl) (.inr ?_)
    · exact (List.getElem?_eq_some_iff.mp hthread).1
    · obtain rfl := Option.some.inj (hpasses.own.symm.trans hcaller)
      exact .poisoning rfl (.inl rfl)
    · refine h.lighter_of_host hhost rfl hpasses rfl (.inr ⟨?_, ?_⟩)
      · rw [hidle]
        rfl
      · rw [hrank]
        exact Nat.lt_succ_self _

/-- **What a crew sees of a step of the host**: nothing. -/
theorem Mirrors.hosted (h : Mirrors rounds team crew) :
    Echoes callbacks team .hosts crew store (team.hosted spawner block, store) none := by
  obtain ⟨host, hhost⟩ := h.exists_host
  by_cases hsome : team.refusal.isSome = true
  · have hhosted : team.hosted spawner block = { team with room := team.room.step team.host } := if_pos hsome
    rw [hhosted]
    cases h.host host hhost with
    | starting hnone _ =>
      rw [hnone] at hsome
      cases hsome
    | poisoning _ hphase => exact h.host_poisons hhost hsome hphase
    | done _ hidle _ =>
      have hrest : team.room.step team.host = team.room := BarrierRoom.step_of_idle hhost hidle
      rw [hrest]
      refine .rests ?_
      unfold Rests
      rw [if_pos hsome]
      exact hrest
  · have hnone : team.refusal = none := Option.not_isSome_iff_eq_none.mp hsome
    have hrests : (∀ program, team.threads[team.started]? ≠ some (.awaited program)) → team.Rests .hosts := by
      intro hall
      unfold Rests
      rw [if_neg hsome]
      exact hall
    unfold Team.hosted
    rw [if_neg hsome]
    cases hthread : team.threads[team.started]? with
    | none => exact .rests (hrests fun _ he => nomatch hthread.symm.trans he)
    | some thread =>
      cases thread with
      | awaited program =>
        simp only
        cases spawner.refuses block team.started with
        | none => exact h.host_starts hnone hthread
        | some cause => exact h.host_gives_up hnone hthread cause
      | _ => exact .rests (hrests fun _ he => nomatch hthread.symm.trans he)

/-! ### Lanes of which a crew sees nothing -/

theorem stepped_threads (hthread : team.threads[lane]? = some thread) :
    (team.stepped lane).threads = team.threads.set lane thread := by
  obtain ⟨hlt, rfl⟩ := List.getElem?_eq_some_iff.mp hthread
  exact (List.set_getElem_self hlt).symm

/-- A lane goes on, and the crew sees nothing. -/
theorem Mirrors.silent {turn : Turn} (h : Mirrors rounds team crew) (thread' : Thread σ α β)
    (hthread : team.threads[lane]? = some thread)
    (hcaller : team.room.callers[lane]? = some caller) (hstation : crew.stations[lane]? = some station)
    (hthreads : team'.threads = team.threads.set lane thread') (hstarted : team'.started = team.started)
    (hrefusal : team'.refusal = team.refusal) (hslots : team'.slots = team.slots)
    (hfault : team'.fault = team.fault) (hgoes : Goes thread thread')
    (hpasses : BarrierRoom.Passes team.threads.length rounds team.room team'.room lane caller caller')
    (hroom : team'.room.barrier.poisoned = team.room.barrier.poisoned ∨
      team'.room.barrier.poisoned = true ∧ crew.poisoned = true)
    (hseat : Seat rounds crew.poisoned team'.room.barrier.poisoned thread' caller' station)
    (hless : thread'.rank team.room.callers.length caller'.phase < thread.rank team.room.callers.length caller.phase)
    (hwakes : caller.phase.holdsLock = true →
      thread'.rank team.room.callers.length caller'.phase + team.room.callers.length ≤
        thread.rank team.room.callers.length caller.phase) :
    Echoes callbacks team turn crew store (team', store) none :=
  .silent rounds (h.moved_alone hthread hstation hthreads hrefusal hslots
    (h.kept.moved hthread hthreads hgoes hstarted hrefusal hfault) hpasses hseat hgoes.panics hroom)
    (.inr (h.lighter_of_lane thread' hthread hcaller hthreads hrefusal hpasses hless hwakes))

/-- A lane takes a step in a call of the barrier and stays in it. -/
theorem Mirrors.stepped {turn : Turn} (h : Mirrors rounds team crew) (hthread : team.threads[lane]? = some thread)
    (hcaller : team.room.callers[lane]? = some caller) (hstation : crew.stations[lane]? = some station)
    (hgoes : Goes thread thread)
    (hpasses : BarrierRoom.Passes team.threads.length rounds team.room (team.room.step lane) lane caller caller')
    (hroom : (team.room.step lane).barrier.poisoned = team.room.barrier.poisoned)
    (hseat : Seat rounds crew.poisoned team.room.barrier.poisoned thread caller' station)
    (hless : thread.rank team.room.callers.length caller'.phase < thread.rank team.room.callers.length caller.phase)
    (hfree : caller.phase.holdsLock = false) :
    Echoes callbacks team turn crew store (team.stepped lane, store) none := by
  refine h.silent thread hthread hcaller hstation (stepped_threads hthread) rfl rfl rfl rfl hgoes hpasses (.inl hroom)
    (hroom.symm ▸ hseat) hless fun hholds => ?_
  rw [hfree] at hholds
  cases hholds

section Back

variable {opened : Thread σ α β} {poisoned : Team σ α β → Team σ α β}

/-- A lane is still in its wait. -/
theorem back_of_busy (hcaller : (team.room.step lane).callers[lane]? = some caller) (hbusy : caller.phase ≠ .idle) :
    team.back lane opened poisoned = team.stepped lane := by
  unfold back
  rw [show (team.stepped lane).room.answer? lane = none from BarrierRoom.answer?_eq_none hcaller hbusy]

theorem back_of_opened (hcaller : (team.room.step lane).callers[lane]? = some (caller.returned .opened)) :
    team.back lane opened poisoned = (team.stepped lane).moved lane opened := by
  unfold back
  rw [show (team.stepped lane).room.answer? lane = some .opened from BarrierRoom.answer?_eq_some hcaller]

theorem back_of_poisoned (hcaller : (team.room.step lane).callers[lane]? = some (caller.returned .poisoned)) :
    team.back lane opened poisoned = poisoned (team.stepped lane) := by
  unfold back
  rw [show (team.stepped lane).room.answer? lane = some .poisoned from BarrierRoom.answer?_eq_some hcaller]

theorem stepped_eq_self (hstep : team.room.step lane = team.room) : team.stepped lane = team := by
  unfold Team.stepped
  rw [hstep]

end Back

/-- What can only step while it waits for something does not have the lock. -/
theorem not_holdsLock_of_patience {phase phase' : Phase} (h : phase'.patience < phase.patience) :
    phase.holdsLock = false := by
  cases hholds : phase.holdsLock with
  | false => rfl
  | true =>
    rw [Phase.patience_of_holdsLock hholds] at h
    exact absurd h (Nat.not_lt_zero _)

/-! ### Lanes that wait for their block to be complete -/

/-- A lane is told that its block is not complete. -/
theorem Mirrors.dismissed {program : Lane σ α β} (h : Mirrors rounds team crew)
    (hthread : team.threads[lane]? = some (.mustering program)) (hcaller : team.room.callers[lane]? = some caller)
    (hstation : crew.stations[lane]? = some (.running program)) (hrounds : rounds = 0) (hidle : caller'.phase = .idle)
    (hpasses : BarrierRoom.Passes team.threads.length rounds team.room (team.room.step lane) lane caller caller')
    (hpoisoned : (team.room.step lane).barrier.poisoned = team.room.barrier.poisoned)
    (hp : team.room.barrier.poisoned = true) :
    Echoes callbacks team (.steps lane) crew store ((team.stepped lane).moved lane .dismissed, store) none := by
  have hmuch := Thread.le_rank_mustering program team.room.callers.length caller.phase
  refine h.silent .dismissed hthread hcaller hstation rfl rfl rfl rfl rfl (.quiet rfl rfl rfl nofun) hpasses
    (.inl hpoisoned) (.dismissed program hidle hrounds (hpoisoned.trans hp)) ?_ fun _ => ?_
  · show 0 < _
    omega
  · show 0 + _ ≤ _
    omega

/-- The last lane of a block begins, and with it the block is complete. -/
theorem Mirrors.begins_last {program : Lane σ α β} (h : Mirrors rounds team crew)
    (hthread : team.threads[lane]? = some (.mustering program)) (hcaller : team.room.callers[lane]? = some caller)
    (hstation : crew.stations[lane]? = some (.running program)) (hrounds : rounds = 0)
    (hpasses : BarrierRoom.Passes team.threads.length (rounds + 1) team.room (team.room.step lane) lane caller caller')
    (hpoisoned : (team.room.step lane).barrier.poisoned = team.room.barrier.poisoned)
    (hcomes : caller.Comes rounds) (hquiet : team.room.barrier.poisoned = false)
    (hothers : ∀ other < team.threads.length, other ≠ lane → ∀ sibling,
      team.room.callers[other]? = some sibling → sibling.hasJoined rounds = true)
    (hleaves : caller'.Leaves (rounds + 1)) (hresults : caller'.results = []) :
    Echoes callbacks team (.steps lane) crew store (team.stepped lane, store) none := by
  have hthreads := stepped_threads hthread
  have hkept := h.kept.moved hthread hthreads (.stays rfl rfl) rfl rfl rfl
  have hcalm : crew.poisoned = false := by
    cases hp : crew.poisoned with
    | false => rfl
    | true =>
      obtain ⟨other, sibling, hsibling, hpanic⟩ := h.source hp
      exact absurd hrounds (Nat.ne_of_gt (h.rounds_pos_of_panic hsibling hpanic))
  refine .silent (rounds + 1) (h.opens hthread hthreads rfl hkept hpasses hothers hcalm hcalm hquiet
    (hpoisoned.trans hquiet) (.mustering program (.leaves hleaves) hresults) h.slots rfl hstation
    fun other hother => ?_) (.inr ?_)
  · -- nobody has come to a barrier of its own yet
    cases hplace : crew.stations[other]? with
    | none => rfl
    | some place =>
      have hlt : other < team.threads.length := h.length ▸ (List.getElem?_eq_some_iff.mp hplace).1
      obtain ⟨sibling, place', hsibling, hplace', hseat⟩ := h.exists_seat (List.getElem?_eq_getElem hlt)
      obtain rfl := Option.some.inj (hplace.symm.trans hplace')
      rcases hseat.of_hasJoined (hothers other hlt hother sibling hsibling) with ⟨_, _, _, rfl⟩ | ⟨hpos, _⟩
      · rfl
      · exact absurd hrounds (Nat.ne_of_gt hpos)
  · refine h.lighter_of_lane _ hthread hcaller hthreads rfl hpasses ?_ fun hholds => ?_
    · rw [hcomes.phase]
      exact Thread.rank_mustering_lt program hleaves.ne_arriving
    · rw [hcomes.phase] at hholds
      cases hholds

/-- **The step of a lane that waits for its block to be complete.** -/
theorem Mirrors.mustering {program : Lane σ α β} (h : Mirrors rounds team crew)
    (hthread : team.threads[lane]? = some (.mustering program)) :
    Echoes callbacks team (.steps lane) crew store
      (team.back lane (.running program) fun team => team.moved lane .dismissed, store) none := by
  have hlane := (List.getElem?_eq_some_iff.mp hthread).1
  obtain ⟨caller, station, hcaller, hstation, hseat⟩ := h.exists_seat hthread
  cases hseat with
  | mustering _ hwaits hresults =>
    obtain ⟨after, changed, hpasses, hpoisoned, hstep⟩ := h.attended.wait_step hcaller hlane hwaits
    have hmuch := Thread.le_rank_mustering program team.room.callers.length caller.phase
    have hgoes : Goes (.mustering program : Thread σ α β) (.mustering program) := .stays rfl rfl
    have hlength : caller.results.length = 0 := congrArg List.length hresults
    have hresults' : ∀ {changed : Caller}, changed.results.length = caller.results.length → changed.results = [] :=
      fun hsame => List.eq_nil_of_length_eq_zero (hsame.trans hlength)
    cases hstep with
    | rests hstep =>
      have hbusy : caller.phase ≠ .idle := hwaits.ne_idle
      rw [back_of_busy hpasses.own hbusy, stepped_eq_self hstep]
      refine .rests ?_
      simp only [Rests, hthread]
      exact hstep
    | refused hcomes hp =>
      rw [back_of_poisoned hpasses.own]
      exact h.dismissed hthread hcaller hstation (hcomes.length.symm.trans hlength) rfl hpasses hpoisoned hp
    | fails hjoined hp =>
      rw [back_of_poisoned hpasses.own]
      exact h.dismissed hthread hcaller hstation (hjoined.length.symm.trans hlength) rfl hpasses hpoisoned hp
    | joins hcomes hp hlast hjoined =>
      rw [back_of_busy hpasses.own (Caller.Waits.joined hjoined).ne_idle]
      refine h.stepped hthread hcaller hstation hgoes hpasses hpoisoned
        (.mustering program (.joined hjoined) (hresults' (hjoined.length.trans hcomes.length.symm))) ?_ ?_
      · rw [hcomes.phase]
        exact Thread.rank_mustering_lt program hjoined.ne_arriving
      · rw [hcomes.phase]
        rfl
    | stays hjoined hjoined' hpatience =>
      rw [back_of_busy hpasses.own (Caller.Waits.joined hjoined').ne_idle]
      refine h.stepped hthread hcaller hstation hgoes hpasses hpoisoned
        (.mustering program (.joined hjoined') (hresults' (hjoined'.length.trans hjoined.length.symm))) ?_
        (not_holdsLock_of_patience hpatience)
      rw [Thread.rank_mustering program hjoined.ne_arriving, Thread.rank_mustering program hjoined'.ne_arriving]
      exact Nat.add_lt_add_left hpatience _
    | lingers hleaves hleaves' hpatience =>
      rw [back_of_busy hpasses.own (Caller.Waits.leaves hleaves').ne_idle]
      refine h.stepped hthread hcaller hstation hgoes hpasses hpoisoned
        (.mustering program (.leaves hleaves')
          (hresults' (Nat.succ.inj (hleaves'.length.trans hleaves.length.symm)))) ?_
        (not_holdsLock_of_patience hpatience)
      rw [Thread.rank_mustering program hleaves.ne_arriving, Thread.rank_mustering program hleaves'.ne_arriving]
      exact Nat.add_lt_add_left hpatience _
    | passes hleaves =>
      rw [back_of_opened hpasses.own]
      refine h.silent (.running program) hthread hcaller hstation rfl rfl rfl rfl rfl
        (.quiet rfl rfl rfl nofun) hpasses (.inl hpoisoned)
        (.running program rfl hleaves.length (hleaves.length ▸ Nat.succ_pos _)) ?_ fun _ => ?_
      · show 1 < _
        omega
      · show 1 + _ ≤ _
        omega
    | opens hcomes hp hothers hleaves =>
      rw [back_of_busy hpasses.own (Caller.Waits.leaves hleaves).ne_idle]
      exact h.begins_last hthread hcaller hstation (hcomes.length.symm.trans hlength) hpasses hpoisoned hcomes hp
        hothers hleaves (hresults' (Nat.succ.inj (hleaves.length.trans (congrArg (· + 1) hcomes.length.symm))))

/-! ### Panics -/

/-- A lane of the team panics, and so does its counterpart. -/
theorem Mirrors.panics {between : Caller} (h : Mirrors rounds team crew) (panic : Panic)
    (hthread : team.threads[lane]? = some thread) (hbefore : thread.isAwaited = false)
    (hunder : ∀ panic, thread ≠ .unwound panic) (hrounds : 0 < rounds)
    (hpasses : BarrierRoom.Passes team.threads.length rounds team.room room' lane caller between)
    (hpoisoned : room'.barrier.poisoned = team.room.barrier.poisoned) (hidle : between.phase = .idle)
    (slots : Array σ) :
    Mirrors rounds (({ team with room := room', slots := slots } : Team σ α β).panicked lane panic)
      (({ crew with slots := slots } : Crew σ α β).unwound lane panic) := by
  have hcall := hpasses.attended.call hpasses.own hidle (.inr (rfl : Phase.poisoning = .poisoning))
  refine h.moved hthread rfl rfl
    (h.kept.moved hthread rfl ⟨⟨hbefore, rfl⟩, ⟨hunder, nofun⟩, fun _ => rfl⟩ rfl rfl rfl)
    (hpasses.trans hcall (by rw [hidle]; rfl)) (.poisoning panic (.inl rfl) hrounds rfl) rfl rfl (fun _ => rfl)
    (.inr ⟨rfl, rfl⟩) (.inl ?_)
  exact (congrArg Barrier.poisoned BarrierRoom.call_barrier).trans hpoisoned

/-- Behind the start the host has started all lanes. -/
theorem Mirrors.refusal_eq_none (h : Mirrors rounds team crew) (hrounds : 0 < rounds) : team.refusal = none := by
  by_contra hnone
  have hlt := h.kept.refused (Option.isSome_iff_ne_none.mpr hnone)
  obtain ⟨thread, hthread⟩ : ∃ thread, team.threads[team.started]? = some thread := ⟨_, List.getElem?_eq_getElem hlt⟩
  have hawaited := (h.kept.started _ thread hthread).mpr (Nat.le_refl _)
  obtain ⟨_, _, _, _, hseat⟩ := h.exists_seat hthread
  cases hseat with
  | awaited _ _ _ hzero => exact absurd hzero (Nat.ne_of_gt hrounds)
  | _ => cases hawaited

/-- Behind the start only a lane poisons the barrier. -/
theorem Mirrors.poisoned_of_rounds (h : Mirrors rounds team crew) (hrounds : 0 < rounds)
    (hp : team.room.barrier.poisoned = true) : crew.poisoned = true := by
  refine (h.poisoned hp).resolve_left fun hsome => ?_
  rw [h.refusal_eq_none hrounds] at hsome
  cases hsome

/-! ### Lanes at a barrier -/

theorem laneDeed?_of_waiting {next : Lane σ α β} (hthread : team.threads[lane]? = some (.waiting next)) :
    team.laneDeed? lane = if CallerDeed.arrives ∈ team.room.deeds (.steps lane) then some .arrives else none := by
  simp only [laneDeed?, hthread]

/-- A lane is seen to arrive in the step in which it does. -/
theorem laneDeed?_of_comes {next : Lane σ α β} (hthread : team.threads[lane]? = some (.waiting next))
    (hcaller : team.room.callers[lane]? = some caller) (hphase : caller.phase = .arriving)
    (hcaller' : (team.room.step lane).callers[lane]? = some caller') (hphase' : caller'.phase ≠ .arriving) :
    team.laneDeed? lane = some .arrives := by
  rw [laneDeed?_of_waiting hthread,
    if_pos ((BarrierRoom.arrives_mem_deeds_iff hcaller hcaller').mpr ⟨hphase, hphase'⟩)]

theorem laneDeed?_of_arrived {next : Lane σ α β} (hthread : team.threads[lane]? = some (.waiting next))
    (hcaller : team.room.callers[lane]? = some caller)
    (hcaller' : (team.room.step lane).callers[lane]? = some caller')
    (hphase : caller.phase = .arriving → caller'.phase = .arriving) : team.laneDeed? lane = none := by
  rw [laneDeed?_of_waiting hthread, if_neg fun hmem => ?_]
  obtain ⟨hbefore, hafter⟩ := (BarrierRoom.arrives_mem_deeds_iff hcaller hcaller').mp hmem
  exact hafter (hphase hbefore)

theorem deed?_of_laneDeed? {deed : Option (Deed σ α)} (h : team.laneDeed? lane = deed) :
    team.deed? (.steps lane) = deed.map fun deed => (lane, deed) := by
  simp only [Team.deed?, h]

/-- A lane that runs does not rest. -/
theorem not_rests_of_running {program : Lane σ α β} (h : crew.stations[lane]? = some (.running program)) :
    ¬ crew.Rests lane := by
  unfold Crew.Rests
  rw [h]
  exact id

/-- A lane that waits in vain does not rest. -/
theorem not_rests_of_arrived {next : Lane σ α β} (h : crew.stations[lane]? = some (.arrived next))
    (hp : crew.poisoned = true) : ¬ crew.Rests lane := by
  unfold Crew.Rests
  rw [h]
  exact fun hcalm => absurd (hp.symm.trans hcalm) nofun

theorem deed?_of_station (h : crew.stations[lane]? = some station) : crew.deed? lane = station.deed? := by
  unfold Crew.deed?
  rw [h]
  rfl

/-- The turn of a lane of the crew that comes to a barrier. -/
theorem turn_of_barrier (callbacks : Callbacks σ α) (store : Store α) {next : Lane σ α β}
    (h : crew.stations[lane]? = some (.running (.barrier next))) :
    crew.turn callbacks lane store = (crew.atBarrier lane next, store) := by
  simp only [Crew.turn, h]

theorem turn_of_released {next : Lane σ α β} (h : crew.stations[lane]? = some (.arrived next))
    (hp : crew.poisoned = true) :
    crew.turn callbacks lane store = (crew.unwound lane (.raised .barrierPoisoned), store) := by
  simp only [Crew.turn, h, hp, if_true]

/-- A lane arrives that is not the last one. -/
theorem Mirrors.joins {next : Lane σ α β} (h : Mirrors rounds team crew)
    (hthread : team.threads[lane]? = some (.waiting next)) (hcaller : team.room.callers[lane]? = some caller)
    (hstation : crew.stations[lane]? = some (.running (.barrier next))) (hrounds : 0 < rounds)
    (hpasses : BarrierRoom.Passes team.threads.length rounds team.room (team.room.step lane) lane caller caller')
    (hpoisoned : (team.room.step lane).barrier.poisoned = team.room.barrier.poisoned)
    (hcomes : caller.Comes rounds) (hcalm : team.room.barrier.poisoned = false)
    (hlast : team.room.barrier.arrived + 1 ≠ team.threads.length) (hjoined : caller'.Joined rounds) :
    Echoes callbacks team (.steps lane) crew store (team.stepped lane, store) (team.deed? (.steps lane)) := by
  have hlane := (List.getElem?_eq_some_iff.mp hthread).1
  have hgoes : Goes (.waiting next : Thread σ α β) (.waiting next) := .stays rfl rfl
  have hthreads := stepped_threads hthread
  have hdeed := deed?_of_laneDeed? (laneDeed?_of_comes hthread hcaller hcomes.phase hpasses.own hjoined.ne_arriving)
  have hturn := turn_of_barrier callbacks store hstation
  have hkept := h.kept.moved hthread hthreads hgoes rfl rfl rfl
  rw [hdeed]
  cases hp : crew.poisoned with
  | true =>
    -- the crew does not let the lane in any more
    rw [Crew.atBarrier, if_pos hp] at hturn
    refine .heard rounds lane (not_rests_of_running hstation) hturn (h.moved hthread hthreads rfl hkept hpasses
      (.turnedAway next hjoined hrounds rfl) h.slots rfl id (.inl hp.symm) (.inl hpoisoned)) ?_
    rw [deed?_of_station hstation]
    rfl
  | false =>
    have hshut : ¬ (crew.stations.set lane (.arrived next)).all Station.isArrived = true := by
      intro hall
      refine hlast (h.attended.last_of_hasJoined hcaller hlane hcomes hcalm fun other hlt hother sibling hsibling => ?_)
      have hthread' := List.getElem?_eq_getElem hlt
      generalize team.threads[other] = thread' at hthread'
      obtain ⟨now, place, hnow, hplace, hseat⟩ := h.exists_seat hthread'
      obtain rfl := Option.some.inj (hsibling.symm.trans hnow)
      have harrived := List.all_eq_true.mp hall place
        (List.mem_of_getElem? ((List.getElem?_set_ne (Ne.symm hother)).trans hplace))
      cases hseat with
      | joined _ hjoined _ => exact hjoined.hasJoined
      | _ => cases harrived
    rw [Crew.atBarrier, if_neg (by rw [hp]; exact Bool.false_ne_true), Crew.opened,
      if_neg (by exact hshut)] at hturn
    refine .heard rounds lane (not_rests_of_running hstation) hturn (h.moved hthread hthreads rfl hkept hpasses
      (.joined next hjoined hrounds) h.slots rfl id (.inl rfl) (.inl hpoisoned)) ?_
    rw [deed?_of_station hstation]
    rfl

/-- The last lane arrives. -/
theorem Mirrors.arrives_last {next : Lane σ α β} (h : Mirrors rounds team crew)
    (hthread : team.threads[lane]? = some (.waiting next)) (hcaller : team.room.callers[lane]? = some caller)
    (hstation : crew.stations[lane]? = some (.running (.barrier next))) (hrounds : 0 < rounds)
    (hpasses : BarrierRoom.Passes team.threads.length (rounds + 1) team.room (team.room.step lane) lane caller caller')
    (hpoisoned : (team.room.step lane).barrier.poisoned = team.room.barrier.poisoned)
    (hcomes : caller.Comes rounds) (hquiet : team.room.barrier.poisoned = false)
    (hothers : ∀ other < team.threads.length, other ≠ lane → ∀ sibling,
      team.room.callers[other]? = some sibling → sibling.hasJoined rounds = true)
    (hleaves : caller'.Leaves (rounds + 1)) :
    Echoes callbacks team (.steps lane) crew store (team.stepped lane, store) (team.deed? (.steps lane)) := by
  have hlane := (List.getElem?_eq_some_iff.mp hthread).1
  have hgoes : Goes (.waiting next : Thread σ α β) (.waiting next) := .stays rfl rfl
  have hthreads := stepped_threads hthread
  have hkept := h.kept.moved hthread hthreads hgoes rfl rfl rfl
  have hdeed := deed?_of_laneDeed? (laneDeed?_of_comes hthread hcaller hcomes.phase hpasses.own hleaves.ne_arriving)
  have hturn := turn_of_barrier callbacks store hstation
  -- whoever has joined waits, and has not panicked
  have hwaiting : ∀ (other : Nat) (sibling : Thread σ α β) (now : Caller) (place : Station σ α β), other ≠ lane →
      team.threads[other]? = some sibling → team.room.callers[other]? = some now →
        crew.stations[other]? = some place → ∃ next, sibling = .waiting next ∧
          (place = .arrived next ∨ crew.poisoned = true) := by
    intro other sibling now place hother hsibling hnow hplace
    have hlt := (List.getElem?_eq_some_iff.mp hsibling).1
    rcases (h.seats other sibling now place hsibling hnow hplace).of_hasJoined
      (hothers other hlt hother now hnow) with ⟨_, hzero, _⟩ | ⟨_, next, rfl, harrived⟩
    · exact absurd hzero (Nat.ne_of_gt hrounds)
    · exact ⟨next, rfl, harrived⟩
  have hcalm : crew.poisoned = false := by
    cases hp : crew.poisoned with
    | false => rfl
    | true =>
      obtain ⟨other, sibling, hsibling, hpanic⟩ := h.source hp
      obtain ⟨now, place, hnow, hplace, _⟩ := h.exists_seat hsibling
      by_cases hother : other = lane
      · subst hother
        obtain rfl := Option.some.inj (hthread.symm.trans hsibling)
        cases hpanic
      · obtain ⟨_, rfl, _⟩ := hwaiting other sibling now place hother hsibling hnow hplace
        cases hpanic
  have hplaces : ∀ (other : Nat) (place : Station σ α β), other ≠ lane → crew.stations[other]? = some place →
      place.isArrived = true := by
    intro other place hother hplace
    have hlt : other < team.threads.length := h.length ▸ (List.getElem?_eq_some_iff.mp hplace).1
    obtain ⟨now, place', hnow, hplace', _⟩ := h.exists_seat (List.getElem?_eq_getElem hlt)
    obtain rfl := Option.some.inj (hplace.symm.trans hplace')
    obtain ⟨_, _, rfl | hp⟩ := hwaiting other _ now place hother (List.getElem?_eq_getElem hlt) hnow hplace
    · rfl
    · exact absurd (hp.symm.trans hcalm) nofun
  have hall : (crew.stations.set lane (.arrived next)).all Station.isArrived = true := by
    refine List.all_eq_true.mpr fun place hmem => ?_
    obtain ⟨other, hplace⟩ := List.getElem?_of_mem hmem
    by_cases hother : other = lane
    · subst hother
      rw [List.getElem?_set_self (h.length ▸ hlane)] at hplace
      obtain rfl := Option.some.inj hplace
      rfl
    · rw [List.getElem?_set_ne (Ne.symm hother)] at hplace
      exact hplaces other place hother hplace
  rw [Crew.atBarrier, if_neg (by rw [hcalm]; exact Bool.false_ne_true), Crew.opened,
    if_pos (by exact hall)] at hturn
  rw [hdeed]
  refine .heard (rounds + 1) lane (not_rests_of_running hstation) hturn (h.opens hthread hthreads rfl hkept hpasses
    hothers hcalm hcalm hquiet (hpoisoned.trans hquiet) (.leaving next hleaves) h.slots ?_ ?_ fun other hother => ?_) ?_
  · exact List.length_map .. |>.trans List.length_set
  · show ((crew.stations.set lane (.arrived next)).map Station.passed)[lane]? = some (.running next)
    rw [List.getElem?_map, List.getElem?_set_self (h.length ▸ hlane)]
    rfl
  · show ((crew.stations.set lane (.arrived next)).map Station.passed)[other]? = _
    rw [List.getElem?_map, List.getElem?_set_ne (Ne.symm hother)]
  · rw [deed?_of_station hstation]
    rfl

/-- A barrier tells a lane that it is poisoned, and its counterpart has not unwound yet. -/
theorem Mirrors.turns_back {next : Lane σ α β} (h : Mirrors rounds team crew)
    (hthread : team.threads[lane]? = some (.waiting next)) (hrounds : 0 < rounds)
    (hpasses : BarrierRoom.Passes team.threads.length rounds team.room (team.room.step lane) lane caller
      (caller.returned .poisoned))
    (hpoisoned : (team.room.step lane).barrier.poisoned = team.room.barrier.poisoned)
    (hlive : ¬ crew.Rests lane)
    (hturn : crew.turn callbacks lane store = (crew.unwound lane (.raised .barrierPoisoned), store))
    (hdeed : team.laneDeed? lane = crew.deed? lane) :
    Echoes callbacks team (.steps lane) crew store
      ((team.stepped lane).panicked lane (.raised .barrierPoisoned), store) (team.deed? (.steps lane)) := by
  have hmirrors := h.panics (.raised .barrierPoisoned) hthread rfl nofun hrounds hpasses hpoisoned rfl
    team.slots
  refine .heard rounds lane hlive hturn ?_ (deed?_of_laneDeed? hdeed)
  have hsame : ({ crew with slots := team.slots } : Crew σ α β) = crew := by rw [← h.slots]
  rw [hsame] at hmirrors
  exact hmirrors

/-- A barrier tells a lane that it is poisoned which the crew has turned away before. -/
theorem Mirrors.gives_up {next : Lane σ α β} (h : Mirrors rounds team crew)
    (hthread : team.threads[lane]? = some (.waiting next)) (hcaller : team.room.callers[lane]? = some caller)
    (hstation : crew.stations[lane]? = some (.unwound (.raised .barrierPoisoned))) (hrounds : 0 < rounds)
    (hcrew : crew.poisoned = true)
    (hpasses : BarrierRoom.Passes team.threads.length rounds team.room (team.room.step lane) lane caller
      (caller.returned .poisoned))
    (hpoisoned : (team.room.step lane).barrier.poisoned = team.room.barrier.poisoned)
    (hjoined : caller.Joined rounds) :
    Echoes callbacks team (.steps lane) crew store
      ((team.stepped lane).panicked lane (.raised .barrierPoisoned), store) none := by
  have hcall := hpasses.attended.call hpasses.own rfl (.inr (rfl : Phase.poisoning = .poisoning))
  refine h.silent (.poisoning (.raised .barrierPoisoned)) hthread hcaller hstation rfl rfl rfl rfl rfl
    (.quiet rfl rfl rfl (ne_unwound rfl)) (hpasses.trans hcall rfl)
    (.inl ((congrArg Barrier.poisoned BarrierRoom.call_barrier).trans hpoisoned))
    (.poisoning _ (.inl rfl) hrounds hcrew) ?_ fun hholds => ?_
  · rw [Thread.rank_waiting next hjoined.ne_arriving]
    show team.room.callers.length + 3 < _
    omega
  · rw [Phase.holdsLock_of_waiting hjoined.generation] at hholds
    cases hholds

/-- **The step of a lane that waits at a barrier.** -/
theorem Mirrors.waiting {next : Lane σ α β} (h : Mirrors rounds team crew)
    (hthread : team.threads[lane]? = some (.waiting next)) :
    Echoes callbacks team (.steps lane) crew store
      (team.back lane (.running next) fun team => team.panicked lane (.raised .barrierPoisoned), store)
      (team.deed? (.steps lane)) := by
  have hlane := (List.getElem?_eq_some_iff.mp hthread).1
  have hgoes : Goes (.waiting next : Thread σ α β) (.waiting next) := .stays rfl rfl
  obtain ⟨caller, station, hcaller, hstation, hseat⟩ := h.exists_seat hthread
  have hwaits : caller.Waits rounds := by
    cases hseat with
    | coming _ hcomes _ => exact .comes hcomes
    | joined _ hjoined _ => exact .joined hjoined
    | turnedAway _ hjoined _ _ => exact .joined hjoined
    | leaving _ hleaves => exact .leaves hleaves
  obtain ⟨after, changed, hpasses, hpoisoned, hstep⟩ := h.attended.wait_step hcaller hlane hwaits
  -- in all but its first step in the wait the lane does nothing
  have hnothing : ∀ {changed : Caller}, (team.room.step lane).callers[lane]? = some changed →
      (caller.phase = .arriving → changed.phase = .arriving) → team.laneDeed? lane = none :=
    fun hcaller' hphase => laneDeed?_of_arrived hthread hcaller hcaller' hphase
  cases hstep with
  | rests hstep =>
    rw [back_of_busy hpasses.own hwaits.ne_idle, stepped_eq_self hstep, deed?_of_laneDeed? (hnothing hpasses.own id)]
    refine .rests ?_
    simp only [Rests, hthread]
    exact hstep
  | refused hcomes hp =>
    rw [back_of_poisoned hpasses.own]
    obtain ⟨rfl, hrounds⟩ := hseat.of_comes hcomes
    have hcrew := h.poisoned_of_rounds hrounds hp
    refine h.turns_back hthread hrounds hpasses hpoisoned (not_rests_of_running hstation) ?_ ?_
    · rw [turn_of_barrier callbacks store hstation, Crew.atBarrier, if_pos hcrew]
    · rw [laneDeed?_of_comes hthread hcaller hcomes.phase hpasses.own (Caller.returned_ne_arriving _ _),
        deed?_of_station hstation]
      rfl
  | joins hcomes hp hlast hjoined =>
    rw [back_of_busy hpasses.own (Caller.Waits.joined hjoined).ne_idle]
    obtain ⟨rfl, hrounds⟩ := hseat.of_comes hcomes
    exact h.joins hthread hcaller hstation hrounds hpasses hpoisoned hcomes hp hlast hjoined
  | opens hcomes hp hothers hleaves =>
    rw [back_of_busy hpasses.own (Caller.Waits.leaves hleaves).ne_idle]
    obtain ⟨rfl, hrounds⟩ := hseat.of_comes hcomes
    exact h.arrives_last hthread hcaller hstation hrounds hpasses hpoisoned hcomes hp hothers hleaves
  | stays hjoined hjoined' hpatience =>
    rw [back_of_busy hpasses.own (Caller.Waits.joined hjoined').ne_idle,
      deed?_of_laneDeed? (hnothing hpasses.own fun harriving => absurd harriving hjoined.ne_arriving)]
    refine h.stepped hthread hcaller hstation hgoes hpasses hpoisoned ?_ ?_ (not_holdsLock_of_patience hpatience)
    · obtain ⟨hrounds, rfl | ⟨hcrew, rfl⟩⟩ := hseat.of_joined hjoined
      · exact .joined next hjoined' hrounds
      · exact .turnedAway next hjoined' hrounds hcrew
    · rw [Thread.rank_waiting next hjoined.ne_arriving, Thread.rank_waiting next hjoined'.ne_arriving]
      exact Nat.add_lt_add_left hpatience _
  | lingers hleaves hleaves' hpatience =>
    rw [back_of_busy hpasses.own (Caller.Waits.leaves hleaves').ne_idle,
      deed?_of_laneDeed? (hnothing hpasses.own fun harriving => absurd harriving hleaves.ne_arriving)]
    obtain rfl := hseat.of_leaves hleaves
    refine h.stepped hthread hcaller hstation hgoes hpasses hpoisoned (.leaving next hleaves') ?_
      (not_holdsLock_of_patience hpatience)
    rw [Thread.rank_waiting next hleaves.ne_arriving, Thread.rank_waiting next hleaves'.ne_arriving]
    exact Nat.add_lt_add_left hpatience _
  | passes hleaves =>
    rw [back_of_opened hpasses.own,
      deed?_of_laneDeed? (hnothing hpasses.own fun harriving => absurd harriving hleaves.ne_arriving)]
    obtain rfl := hseat.of_leaves hleaves
    refine h.silent (.running next) hthread hcaller hstation rfl rfl rfl rfl rfl
      (.quiet rfl rfl rfl (ne_unwound rfl)) hpasses (.inl hpoisoned)
      (.running next rfl hleaves.length (hleaves.length ▸ Nat.succ_pos _)) ?_ fun _ => ?_
    · rw [Thread.rank_waiting next hleaves.ne_arriving]
      show 1 < _
      omega
    · rw [Thread.rank_waiting next hleaves.ne_arriving]
      show 1 + _ ≤ _
      omega
  | fails hjoined hp =>
    rw [back_of_poisoned hpasses.own]
    have hquiet := hnothing hpasses.own fun harriving => absurd harriving hjoined.ne_arriving
    obtain ⟨hrounds, rfl | ⟨hcrew, rfl⟩⟩ := hseat.of_joined hjoined
    · have hcrew := h.poisoned_of_rounds hrounds hp
      refine h.turns_back hthread hrounds hpasses hpoisoned (not_rests_of_arrived hstation hcrew)
        (turn_of_released hstation hcrew) ?_
      rw [hquiet, deed?_of_station hstation]
      rfl
    · rw [deed?_of_laneDeed? hquiet]
      exact h.gives_up hthread hcaller hstation hrounds hcrew hpasses hpoisoned hjoined

/-! ### Lanes that have panicked -/

/-- **The step of a lane that poisons the barrier.** -/
theorem Mirrors.poisons {panic : Panic} (h : Mirrors rounds team crew)
    (hthread : team.threads[lane]? = some (.poisoning panic)) :
    Echoes callbacks team (.steps lane) crew store
      (if (team.stepped lane).room.isIdle lane then ((team.stepped lane).moved lane (.reporting panic), store)
        else (team.stepped lane, store)) none := by
  obtain ⟨caller, station, hcaller, hstation, hseat⟩ := h.exists_seat hthread
  cases hseat with
  | poisoning _ hphase hrounds hcrew =>
    obtain ⟨changed, hpasses, hstep⟩ := h.attended.poison_step hcaller hphase
    have hidle := BarrierRoom.isIdle_iff hpasses.own
    have hgoes : Goes (.poisoning panic : Thread σ α β) (.poisoning panic) := .stays rfl rfl
    have hthreads := stepped_threads hthread
    generalize hpoisoned : (team.room.step lane).barrier.poisoned = after at hstep
    cases hstep with
    | rests hstep =>
      rw [if_neg, stepped_eq_self hstep]
      · refine .rests ?_
        simp only [Rests, hthread]
        exact hstep
      · rw [show (team.stepped lane).room.isIdle lane = true ↔ _ from hidle]
        rcases hphase with hphase | hphase <;> (rw [hphase]; exact nofun)
    | closes hnow =>
      rw [if_neg]
      · refine h.silent _ hthread hcaller hstation hthreads rfl rfl rfl rfl hgoes hpasses (.inr ⟨hpoisoned, hcrew⟩)
          (.poisoning panic (.inr rfl) hrounds hcrew) ?_ fun hholds => ?_
        · rw [hnow]
          exact Nat.lt_succ_self _
        · rw [hnow] at hholds
          cases hholds
      · rw [show (team.stepped lane).room.isIdle lane = true ↔ _ from hidle]
        exact nofun
    | exposes hnow =>
      rw [if_pos (show (team.stepped lane).room.isIdle lane = true from hidle.mpr rfl)]
      refine h.silent (.reporting panic) hthread hcaller hstation rfl rfl rfl rfl rfl
        ⟨⟨rfl, rfl⟩, ⟨nofun, nofun⟩, fun _ => rfl⟩ hpasses (.inr ⟨hpoisoned, hcrew⟩)
        (.reporting panic rfl hrounds hcrew hpoisoned) ?_ fun _ => ?_
      · rw [hnow]
        show 1 < team.room.callers.length + 2
        omega
      · rw [hnow]
        show 1 + team.room.callers.length ≤ team.room.callers.length + 2
        omega

/-- **The step of a lane that tells its panic.** -/
theorem Mirrors.tells {panic : Panic} (h : Mirrors rounds team crew)
    (hthread : team.threads[lane]? = some (.reporting panic)) :
    Echoes callbacks team (.steps lane) crew store (team.told lane panic, store) none := by
  obtain ⟨caller, station, hcaller, hstation, hseat⟩ := h.exists_seat hthread
  cases hseat with
  | reporting _ hidle hrounds hcrew hroom =>
    have hpasses := h.attended.passes_self hcaller
    refine .silent rounds (h.moved_alone hthread hstation rfl rfl rfl (h.kept.tells hthread) hpasses
      (.unwound panic hidle hrounds hcrew hroom) id (.inl rfl)) (.inr ?_)
    refine h.lighter_of_lane (.unwound panic) hthread hcaller rfl rfl hpasses Nat.zero_lt_one
      fun hholds => ?_
    rw [hidle] at hholds
    cases hholds

/-! ### Lanes that run -/

/-- **The step of a lane that runs.** -/
theorem Mirrors.running {program : Lane σ α β} (h : Mirrors rounds team crew)
    (hthread : team.threads[lane]? = some (.running program)) :
    Echoes callbacks team (.steps lane) crew store (team.advanced callbacks lane store)
      (team.deed? (.steps lane)) := by
  obtain ⟨caller, station, hcaller, hstation, hseat⟩ := h.exists_seat hthread
  cases hseat with
  | running _ hidle hlength hrounds =>
    have hlive := not_rests_of_running hstation
    have hpasses := h.attended.passes_self hcaller
    -- the lane panics with some slots
    have hpanics := fun (panic : Panic) (slots : Array σ) =>
      h.panics panic hthread rfl nofun hrounds hpasses rfl hidle slots
    cases program with
    | done result =>
      have hadvanced : team.advanced callbacks lane store = (team.moved lane (.finished result), store) := by
        simp only [advanced, hthread]
      have hturn : crew.turn callbacks lane store = (crew.moved lane (.finished result), store) := by
        simp only [Crew.turn, hstation]
      rw [hadvanced]
      refine .heard rounds lane hlive hturn (h.moved hthread rfl rfl
        (h.kept.moved hthread rfl (.quiet rfl rfl rfl nofun) rfl rfl rfl) hpasses
        (.finished result hidle hlength hrounds) h.slots rfl nofun (.inl rfl) (.inl rfl)) ?_
      rw [deed?_of_station hstation]
      exact deed?_of_laneDeed? (by simp only [laneDeed?, hthread]; rfl)
    | fault panic =>
      have hadvanced : team.advanced callbacks lane store = (team.panicked lane panic, store) := by
        simp only [advanced, hthread]
      have hturn : crew.turn callbacks lane store = (crew.unwound lane panic, store) := by
        simp only [Crew.turn, hstation]
      rw [hadvanced]
      have hmirrors := hpanics panic crew.slots
      rw [show ({ team with room := team.room, slots := crew.slots } : Team σ α β) = team by rw [h.slots]] at hmirrors
      refine .heard rounds lane hlive hturn hmirrors ?_
      rw [deed?_of_station hstation]
      exact deed?_of_laneDeed? (by simp only [laneDeed?, hthread]; rfl)
    | barrier next =>
      have hadvanced : team.advanced callbacks lane store = (team.calling lane (.waiting next) .arriving, store) := by
        simp only [advanced, hthread]
      rw [hadvanced, deed?_of_laneDeed? (show team.laneDeed? lane = none by simp only [laneDeed?, hthread])]
      refine h.silent (.waiting next) hthread hcaller hstation rfl rfl rfl rfl rfl
        (.quiet rfl rfl rfl nofun) (h.attended.call hcaller hidle (.inl rfl))
        (.inl (congrArg Barrier.poisoned BarrierRoom.call_barrier)) (.coming next ⟨rfl, hlength⟩ hrounds)
        Nat.zero_lt_one fun hholds => ?_
      rw [hidle] at hholds
      cases hholds
    | ask request next =>
      have hadvanced : team.advanced callbacks lane store =
          team.answered lane next (Machine.perform callbacks request ⟨crew.slots, store⟩) := by
        simp only [advanced, hthread, h.slots]
      have hturn : crew.turn callbacks lane store =
          crew.answered lane next (Machine.perform callbacks request ⟨crew.slots, store⟩) := by
        simp only [Crew.turn, hstation]
      have hdeed : team.deed? (.steps lane) = (crew.deed? lane).map fun deed => (lane, deed) := by
        rw [deed?_of_station hstation]
        exact deed?_of_laneDeed? (by simp only [laneDeed?, hthread]; rfl)
      rw [hadvanced]
      generalize Machine.perform callbacks request ⟨crew.slots, store⟩ = outcome at hturn
      obtain ⟨panic | answer, machine⟩ := outcome
      · exact .heard rounds lane hlive hturn (hpanics panic machine.slots) hdeed
      · refine .heard rounds lane hlive hturn (h.moved hthread rfl rfl
          (h.kept.moved hthread rfl (.quiet rfl rfl rfl nofun) rfl rfl rfl) hpasses
          (.running (next answer) hidle hlength hrounds) rfl rfl nofun (.inl rfl) (.inl rfl)) hdeed

/-! ### All turns -/

/-- Nobody is moved by a wake-up. -/
theorem Mirrors.woken (h : Mirrors rounds team crew) (lane : Nat) :
    Mirrors rounds { team with room := team.room.wake lane } crew := by
  obtain ⟨hattended, hpoisoned, hcallers⟩ := h.attended.wake lane
  refine h.hosts (h.kept.withRoom _) rfl rfl hattended (fun hp => hpoisoned.trans hp)
    (fun other _ sibling' => hcallers other sibling') (fun host hhost => ?_)
    fun hp => h.poisoned (hpoisoned.symm.trans hp)
  show HostSeat team.refusal (team.room.wake lane).barrier.poisoned host
  rw [hpoisoned]
  obtain ⟨before, hbefore, rfl | rfl⟩ := hcallers _ host hhost
  · exact h.host _ hbefore
  · exact (h.host before hbefore).notified

/-- A lane that has not been started, or has come to its end, does nothing in its turns. -/
theorem echoes_of_still (hstill : ∀ thread, team.threads[lane]? = some thread →
    thread.isAwaited = true ∨ thread.isOver = true) :
    Echoes callbacks team (.steps lane) crew store (team.advanced callbacks lane store)
      (team.deed? (.steps lane)) := by
  obtain ⟨hadvanced, hdeed, hrests⟩ : team.advanced callbacks lane store = (team, store) ∧
      team.deed? (.steps lane) = none ∧ team.Rests (.steps lane) := by
    cases hthread : team.threads[lane]? with
    | none => simp only [advanced, Team.deed?, laneDeed?, Rests, hthread, Option.map_none, and_self]
    | some thread =>
      have hthread' := hstill thread hthread
      cases thread with
      | awaited _ | dismissed | finished _ | unwound _ =>
        simp only [advanced, Team.deed?, laneDeed?, Rests, hthread, Option.map_none, and_self]
      | _ => rcases hthread' with h | h <;> cases h
  rw [hadvanced, hdeed]
  exact .rests hrests

/-- **Every turn of a team echoes in a crew that mirrors it.** -/
theorem Mirrors.echoes (h : Mirrors rounds team crew) (callbacks : Callbacks σ α) (spawner : Spawner)
    (block : Nat) (store : Store α) (turn : Turn) :
    Echoes callbacks team turn crew store (team.turn callbacks spawner block store turn) (team.deed? turn) := by
  cases turn with
  | hosts => exact h.hosted
  | wakes lane => exact .silent rounds (h.woken lane) (.inl ⟨lane, rfl⟩)
  | steps lane =>
    show Echoes callbacks team (.steps lane) crew store (team.advanced callbacks lane store) _
    cases hthread : team.threads[lane]? with
    | none =>
      refine echoes_of_still fun thread hs => ?_
      rw [hthread] at hs
      cases hs
    | some thread =>
      have hstill : thread.isAwaited = true ∨ thread.isOver = true →
          Echoes callbacks team (.steps lane) crew store (team.advanced callbacks lane store)
            (team.deed? (.steps lane)) := by
        intro hstill
        refine echoes_of_still fun other hs => ?_
        rwa [Option.some.inj (hs.symm.trans hthread)]
      cases thread with
      | awaited program => exact hstill (.inl rfl)
      | dismissed => exact hstill (.inr rfl)
      | finished result => exact hstill (.inr rfl)
      | unwound panic => exact hstill (.inr rfl)
      | running program => exact h.running hthread
      | mustering program =>
        have hadvanced : team.advanced callbacks lane store =
            (team.back lane (.running program) fun team => team.moved lane .dismissed, store) := by
          simp only [advanced, hthread]
        rw [hadvanced, deed?_of_laneDeed? (show team.laneDeed? lane = none by simp only [laneDeed?, hthread])]
        exact h.mustering hthread
      | waiting next =>
        have hadvanced : team.advanced callbacks lane store =
            (team.back lane (.running next) fun team => team.panicked lane (.raised .barrierPoisoned), store) := by
          simp only [advanced, hthread]
        rw [hadvanced]
        exact h.waiting hthread
      | poisoning panic =>
        have hadvanced : team.advanced callbacks lane store =
            if (team.stepped lane).room.isIdle lane then ((team.stepped lane).moved lane (.reporting panic), store)
            else (team.stepped lane, store) := by
          simp only [advanced, hthread]
        rw [hadvanced, deed?_of_laneDeed? (show team.laneDeed? lane = none by simp only [laneDeed?, hthread])]
        exact h.poisons hthread
      | reporting panic =>
        have hadvanced : team.advanced callbacks lane store = (team.told lane panic, store) := by
          simp only [advanced, hthread]
        rw [hadvanced, deed?_of_laneDeed? (show team.laneDeed? lane = none by simp only [laneDeed?, hthread])]
        exact h.tells hthread

end Team

end BlockMachine
