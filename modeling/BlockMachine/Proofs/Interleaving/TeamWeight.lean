import BlockMachine.Proofs.Interleaving.Team
import Mathlib.Algebra.Order.BigOperators.Group.Finset

/-!
# How much is left of which a crew sees nothing

Between two things that a crew sees of a team its threads arrive, spin, fall asleep, wake up, take the lock and poison
the barrier.  Each of these steps leaves them less to do.

* `Thread.rank` — how much a thread can do of which a crew sees nothing.
* `Team.weight` — how much all of them can do.
* `Team.weight_lt` — a step lightens a team if it brings down the rank of whoever takes it.
-/

set_option autoImplicit false

namespace BlockMachine

variable {σ α β : Type}

/-! ## Ranks -/

/-- How much a caller that poisons a barrier has to do. -/
def Phase.toPoison (callers : Nat) : Phase → Nat
  | .poisoning => callers + 3
  | .exposing => callers + 2
  | _ => 0

/-- How much a thread can do of which a crew sees nothing, by where its caller at the barrier stands.  A thread that
has the lock may wake all others, and so has as much to do as all of them. -/
def Thread.rank (callers : Nat) (thread : Thread σ α β) (phase : Phase) : Nat :=
  match thread with
  | .awaited _ => callers + 2 * spinLimit + 9
  | .mustering _ => if phase = .arriving then callers + 2 * spinLimit + 8 else callers + 4 + phase.patience
  | .waiting _ => if phase = .arriving then 0 else callers + 4 + phase.patience
  | .poisoning _ => phase.toPoison callers
  | .running _ | .reporting _ => 1
  | .dismissed | .finished _ | .unwound _ => 0

/-- Who is woken has one thing more to do. -/
theorem Thread.rank_notified (callers : Nat) (thread : Thread σ α β) (caller : Caller) :
    thread.rank callers caller.notified.phase ≤ thread.rank callers caller.phase + 1 := by
  obtain ⟨phase, results⟩ := caller
  cases phase with
  | parked generation => cases thread <;> simp [rank, Caller.notified, Caller.moveTo, Phase.patience, Phase.toPoison]
  | _ => exact Nat.le_succ _

theorem Phase.toPoison_notified (callers : Nat) (caller : Caller) :
    caller.notified.phase.toPoison callers = caller.phase.toPoison callers := by
  obtain ⟨phase, results⟩ := caller
  cases phase <;> rfl

namespace Team

/-- How much a lane, or the host, can do of which a crew sees nothing. -/
def rank (team : Team σ α β) (index : Nat) : Nat :=
  match team.room.callers[index]?, team.threads[index]? with
  | some caller, some thread => thread.rank team.room.callers.length caller.phase
  | some caller, none =>
    if team.refusal.isSome then caller.phase.toPoison team.room.callers.length else team.room.callers.length + 4
  | none, _ => 0

/-- How much all of them can do. -/
def weight (team : Team σ α β) : Nat := ∑ index ∈ Finset.range team.room.callers.length, team.rank index

variable {rounds lane index : Nat} {team team' : Team σ α β} {thread thread' : Thread σ α β}
  {caller caller' : Caller}

theorem rank_of_thread (hthread : team.threads[lane]? = some thread)
    (hcaller : team.room.callers[lane]? = some caller) :
    team.rank lane = thread.rank team.room.callers.length caller.phase := by
  rw [rank, hthread, hcaller]

theorem rank_of_host (hcaller : team.room.callers[team.threads.length]? = some caller) :
    team.rank team.threads.length =
      if team.refusal.isSome then caller.phase.toPoison team.room.callers.length
      else team.room.callers.length + 4 := by
  rw [rank, hcaller, List.getElem?_eq_none (Nat.le_refl _)]

/-- The rank of one who stands where it stood. -/
theorem rank_eq (hlength : team'.room.callers.length = team.room.callers.length)
    (hcallers : team'.room.callers[index]? = team.room.callers[index]?)
    (hthreads : team'.threads[index]? = team.threads[index]?)
    (hrefusal : team.threads[index]? = none → team'.refusal = team.refusal) :
    team'.rank index = team.rank index := by
  unfold rank
  rw [hcallers, hthreads, hlength]
  cases hthread : team.threads[index]? with
  | some _ => cases team.room.callers[index]? <;> rfl
  | none => rw [hrefusal hthread]

/-- The rank of one who may have been woken. -/
theorem rank_le (hlength : team'.room.callers.length = team.room.callers.length)
    (hthreads : team'.threads[index]? = team.threads[index]?)
    (hrefusal : team.threads[index]? = none → team'.refusal = team.refusal)
    (hcaller : team'.room.callers[index]? = some caller')
    (hbefore : team.room.callers[index]? = some caller) (hsame : caller' = caller ∨ caller' = caller.notified) :
    team'.rank index ≤ team.rank index + 1 := by
  rcases hsame with rfl | rfl
  · rw [rank_eq hlength (hcaller.trans hbefore.symm) hthreads hrefusal]
    exact Nat.le_succ _
  · unfold rank
    rw [hcaller, hbefore, hthreads, hlength]
    cases hthread : team.threads[index]? with
    | some thread => exact thread.rank_notified _ caller
    | none =>
      simp only
      rw [hrefusal hthread, Phase.toPoison_notified]
      exact Nat.le_succ _

/-- **A turn lightens a team** if the one who takes it has less to do behind it than before, and much less if others
may have been woken. -/
theorem weight_lt {threads before after : Nat} (h : team.room.Attended threads before)
    (hpasses : BarrierRoom.Passes threads after team.room team'.room index caller caller')
    (hcaller : team.room.callers[index]? = some caller)
    (hthreads : ∀ other, other ≠ index → team'.threads[other]? = team.threads[other]?)
    (hrefusal : ∀ other ≤ threads, other ≠ index → team.threads[other]? = none → team'.refusal = team.refusal)
    (hless : team'.rank index < team.rank index)
    (hwakes : caller.phase.holdsLock = true →
      team'.rank index + team.room.callers.length ≤ team.rank index) : team'.weight < team.weight := by
  have hlength : team'.room.callers.length = team.room.callers.length :=
    hpasses.attended.length_eq.trans h.length_eq.symm
  have hmem := Finset.mem_range.mpr (List.getElem?_eq_some_iff.mp hcaller).1
  have hle : ∀ other < team.room.callers.length, other ≤ threads :=
    fun other hother => Nat.lt_succ_iff.mp (Nat.lt_of_lt_of_eq hother h.length_eq)
  unfold weight
  rw [hlength]
  cases hholds : caller.phase.holdsLock with
  | false =>
    refine Finset.sum_lt_sum (fun other hother => ?_) ⟨index, hmem, hless⟩
    by_cases he : other = index
    · rw [he]
      exact Nat.le_of_lt hless
    · exact Nat.le_of_eq (rank_eq hlength (hpasses.alone hholds other he) (hthreads other he)
        (hrefusal other (hle other (Finset.mem_range.mp hother)) he))
  | true =>
    -- everyone else has at most one thing more to do
    have hothers : ∑ other ∈ (Finset.range team.room.callers.length).erase index, team'.rank other ≤
        ∑ other ∈ (Finset.range team.room.callers.length).erase index, (team.rank other + 1) := by
      refine Finset.sum_le_sum fun other hother => ?_
      obtain ⟨he, hother⟩ := Finset.mem_erase.mp hother
      have hlt := Finset.mem_range.mp hother
      have hnow := List.getElem?_eq_getElem (Nat.lt_of_lt_of_eq hlt hlength.symm)
      obtain ⟨sibling, hsibling, hsame⟩ := hpasses.others other _ he hnow
      exact rank_le hlength (hthreads other he) (hrefusal other (hle other hlt) he) hnow hsibling hsame
    rw [Finset.sum_add_distrib, Finset.sum_const, Finset.card_erase_of_mem hmem, Finset.card_range, smul_eq_mul,
      Nat.mul_one] at hothers
    rw [← Finset.add_sum_erase _ _ hmem, ← Finset.add_sum_erase _ _ hmem]
    have hmuch := hwakes hholds
    omega

/-- A lane takes a step that lightens its team. -/
theorem Mirrors.lighter_of_lane {crew : Crew σ α β} {after : Nat} (h : Mirrors rounds team crew)
    (thread' : Thread σ α β) (hthread : team.threads[lane]? = some thread)
    (hcaller : team.room.callers[lane]? = some caller)
    (hthreads : team'.threads = team.threads.set lane thread') (hrefusal : team'.refusal = team.refusal)
    (hpasses : BarrierRoom.Passes team.threads.length after team.room team'.room lane caller caller')
    (hless : thread'.rank team.room.callers.length caller'.phase < thread.rank team.room.callers.length caller.phase)
    (hwakes : caller.phase.holdsLock = true →
      thread'.rank team.room.callers.length caller'.phase + team.room.callers.length ≤
        thread.rank team.room.callers.length caller.phase) : team'.weight < team.weight := by
  have hthread' : team'.threads[lane]? = some thread' := by
    rw [hthreads]
    exact List.getElem?_set_self (List.getElem?_eq_some_iff.mp hthread).1
  have hlength : team'.room.callers.length = team.room.callers.length :=
    hpasses.attended.length_eq.trans h.attended.length_eq.symm
  have hrank := rank_of_thread hthread hcaller
  have hrank' := rank_of_thread hthread' hpasses.own
  rw [hlength] at hrank'
  refine weight_lt h.attended hpasses hcaller (fun other he => ?_) (fun _ _ _ _ => hrefusal) ?_ fun hholds => ?_
  · rw [hthreads, List.getElem?_set_ne (Ne.symm he)]
  · rw [hrank, hrank']
    exact hless
  · rw [hrank, hrank']
    exact hwakes hholds

/-- The host takes a step that lightens its team. -/
theorem Mirrors.lighter_of_host {crew : Crew σ α β} (h : Mirrors rounds team crew)
    (hcaller : team.room.callers[team.threads.length]? = some caller) (hthreads : team'.threads = team.threads)
    (hpasses : BarrierRoom.Passes team.threads.length rounds team.room team'.room team.threads.length caller caller')
    (hrefusal : team'.refusal.isSome = true)
    (hless : caller'.phase.toPoison team.room.callers.length + team.room.callers.length ≤
        team.rank team.threads.length ∨
      caller.phase.holdsLock = false ∧
        caller'.phase.toPoison team.room.callers.length < team.rank team.threads.length) :
    team'.weight < team.weight := by
  have hlength : team'.room.callers.length = team.room.callers.length :=
    hpasses.attended.length_eq.trans h.attended.length_eq.symm
  have hrank' := rank_of_host (show team'.room.callers[team'.threads.length]? = some caller' by
    rw [hthreads]
    exact hpasses.own)
  rw [hthreads, if_pos hrefusal, hlength] at hrank'
  have hpos : 0 < team.room.callers.length := Nat.zero_lt_of_lt (List.getElem?_eq_some_iff.mp hcaller).1
  refine weight_lt h.attended hpasses hcaller (fun other _ => by rw [hthreads]) (fun other hle he hnone => ?_) ?_
    fun hholds => ?_
  · exact absurd (Nat.le_antisymm hle (List.getElem?_eq_none_iff.mp hnone)) he
  · rw [hrank']
    rcases hless with hmuch | ⟨_, hless⟩
    · omega
    · exact hless
  · rw [hrank']
    rcases hless with hmuch | ⟨hfree, _⟩
    · exact hmuch
    · exact absurd (hholds.symm.trans hfree) nofun

end Team

/-! ## Ranks of those who wait -/

theorem Phase.patience_of_holdsLock {phase : Phase} (h : phase.holdsLock = true) : phase.patience = 0 := by
  cases phase <;> first | rfl | cases h

namespace Thread

variable {callers : Nat} {phase phase' : Phase}

theorem rank_mustering (program : Lane σ α β) (h : phase ≠ .arriving) :
    (Thread.mustering program).rank callers phase = callers + 4 + phase.patience := if_neg h

theorem rank_waiting (next : Lane σ α β) (h : phase ≠ .arriving) :
    (Thread.waiting next).rank callers phase = callers + 4 + phase.patience := if_neg h

/-- Whoever waits for the block to be complete has more to do than behind that. -/
theorem le_rank_mustering (program : Lane σ α β) (callers : Nat) (phase : Phase) :
    callers + 4 ≤ (Thread.mustering program).rank callers phase := by
  by_cases h : phase = .arriving
  · rw [h]
    show callers + 4 ≤ callers + 2 * spinLimit + 8
    omega
  · rw [rank_mustering program h]
    exact Nat.le_add_right ..

/-- Who has arrived there has less to do than before. -/
theorem rank_mustering_lt (program : Lane σ α β) (h : phase ≠ .arriving) :
    (Thread.mustering program).rank callers phase < (Thread.mustering program).rank callers .arriving := by
  have hpatience := phase.patience_le
  rw [rank_mustering program h]
  show callers + 4 + phase.patience < callers + 2 * spinLimit + 8
  omega

end Thread

end BlockMachine
