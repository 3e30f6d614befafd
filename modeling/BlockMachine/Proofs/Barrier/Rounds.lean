import BlockMachine.Proofs.Barrier.Lock
import BlockMachine.Proofs.Barrier.Phases

/-!
# Rounds of a barrier that may be poisoned

The lanes of a block wait at its barrier again and again, and at some point one of them, or the host that starts them,
may poison it.  The host itself never waits.

* `Caller.Comes`, `Caller.Joined`, `Caller.Leaves` — where a caller stands in a wait at a barrier that has been opened
  a number of times.
* `BarrierRoom.Attended` — the lanes and the host of a block at their barrier.
* `BarrierRoom.Attended.wait_step` — all that a step can do to a caller that waits.
* `BarrierRoom.Attended.poison_step` — all that it can do to one that poisons the barrier.

A caller that leaves is behind the barrier, and one that has joined is in front of it.  A poisoned barrier answers only
callers of the second kind with `poisoned`: this is why a lane that is slow to leave a round loses nothing of it.
-/

set_option autoImplicit false

namespace BlockMachine

/-- A bound for the steps that a caller can take before its wait is over or it is parked. -/
def Phase.patience : Phase → Nat
  | .rechecking _ => 1
  | .spinning _ round => 2 * (spinLimit - round) + 2
  | .peeking _ round => 2 * (spinLimit - (round + 1)) + 3
  | .idle | .arriving | .opening | .parked _ | .poisoning | .exposing => 0

theorem Phase.patience_le (phase : Phase) : phase.patience ≤ 2 * spinLimit + 3 := by
  cases phase <;> simp only [Phase.patience] <;> omega

namespace Caller

/-- About to arrive at a barrier that has been opened a number of times. -/
structure Comes (rounds : Nat) (caller : Caller) : Prop where
  phase : caller.phase = .arriving
  length : caller.results.length = rounds

/-- Has arrived there, and waits for others. -/
structure Joined (rounds : Nat) (caller : Caller) : Prop where
  generation : caller.phase.generation? = some (UInt64.ofNat caller.results.length)
  length : caller.results.length = rounds

/-- Has been let through there, but is not back yet. -/
structure Leaves (rounds : Nat) (caller : Caller) : Prop where
  stands : caller.phase = .opening ∨ caller.phase.generation? = some (UInt64.ofNat caller.results.length)
  length : caller.results.length + 1 = rounds

/-- A caller in a wait. -/
inductive Waits (rounds : Nat) (caller : Caller) : Prop
  | comes (h : caller.Comes rounds)
  | joined (h : caller.Joined rounds)
  | leaves (h : caller.Leaves rounds)

variable {rounds : Nat} {caller : Caller}

theorem Comes.hasJoined (h : caller.Comes rounds) : caller.hasJoined rounds = false :=
  hasJoined_of_outside (congrArg Phase.generation? h.phase)

theorem Joined.hasJoined (h : caller.Joined rounds) : caller.hasJoined rounds = true :=
  hasJoined_of_waiting h.generation h.length

theorem Leaves.hasJoined (h : caller.Leaves rounds) : caller.hasJoined rounds = false :=
  hasJoined_of_leaving h.length

/-- Who counts as having joined has done so. -/
theorem Waits.joined_of_hasJoined (h : caller.Waits rounds) (hjoined : caller.hasJoined rounds = true) :
    caller.Joined rounds := by
  cases h with
  | comes h => exact absurd (h.hasJoined.symm.trans hjoined) nofun
  | joined h => exact h
  | leaves h => exact absurd (h.hasJoined.symm.trans hjoined) nofun

/-- When the barrier opens, who has joined is let through. -/
theorem Joined.leaves (h : caller.Joined rounds) : caller.Leaves (rounds + 1) :=
  ⟨.inr h.generation, congrArg (· + 1) h.length⟩

theorem Joined.notified (h : caller.Joined rounds) : caller.notified.Joined rounds := by
  refine ⟨?_, ?_⟩
  · rw [notified_generation?, notified_results]
    exact h.generation
  · rw [notified_results]
    exact h.length

theorem Leaves.notified (h : caller.Leaves rounds) : caller.notified.Leaves rounds := by
  refine ⟨h.stands.imp (fun hphase => ?_) fun hgeneration => ?_, ?_⟩
  · rw [notified_eq_self (congrArg Phase.generation? hphase)]
    exact hphase
  · rw [notified_generation?, notified_results]
    exact hgeneration
  · rw [notified_results]
    exact h.length

theorem Waits.notified (h : caller.Waits rounds) : caller.notified.Waits rounds := by
  cases h with
  | comes h =>
    rw [notified_eq_self (congrArg Phase.generation? h.phase)]
    exact .comes h
  | joined h => exact .joined h.notified
  | leaves h => exact .leaves h.notified

theorem Joined.moveTo (h : caller.Joined rounds) {phase : Phase}
    (hphase : phase.generation? = caller.phase.generation?) : (caller.moveTo phase).Joined rounds :=
  ⟨hphase.trans h.generation, h.length⟩

theorem Leaves.moveTo (h : caller.Leaves rounds) {phase : Phase} {generation : UInt64}
    (hgeneration : caller.phase.generation? = some generation) (hphase : phase.generation? = some generation) :
    (caller.moveTo phase).Leaves rounds := by
  refine ⟨.inr (hphase.trans ?_), h.length⟩
  rcases h.stands with hopening | hstands
  · rw [hopening] at hgeneration
    cases hgeneration
  · exact hgeneration.symm.trans hstands

end Caller

/-- A caller that has joined a round. -/
def Caller.guest (rounds : Nat) : Caller := ⟨.spinning 0 0, List.replicate rounds .opened⟩

theorem Caller.hasJoined_guest (rounds : Nat) : (guest rounds).hasJoined rounds = true :=
  hasJoined_of_waiting (Phase.generation?.eq_1 _ _) List.length_replicate

/-- Two generations that follow each other are not the same. -/
theorem ofNat_succ_ne (rounds : Nat) : UInt64.ofNat (rounds + 1) ≠ UInt64.ofNat rounds := by
  intro h
  have hnat := congrArg UInt64.toNat h
  rw [UInt64.toNat_ofNat', UInt64.toNat_ofNat'] at hnat
  omega

namespace BarrierRoom

/-- The callers that have joined a round are those that count as arrived, as long as nobody gives up at a poisoned
barrier. -/
structure Counts (rounds : Nat) (room : BarrierRoom) : Prop where
  le : room.callers.countP (Caller.hasJoined rounds) ≤ room.barrier.arrived
  eq : room.barrier.poisoned = false →
    room.barrier.arrived = room.callers.countP (Caller.hasJoined rounds)

theorem Counts.of_eq {rounds : Nat} {room : BarrierRoom}
    (h : room.barrier.arrived = room.callers.countP (Caller.hasJoined rounds)) : room.Counts rounds :=
  ⟨Nat.le_of_eq h.symm, fun _ => h⟩

/-- The lanes and the host of a block at their barrier, which has been opened a number of times. -/
structure Attended (threads rounds : Nat) (room : BarrierRoom) : Prop where
  locked : room.Locked
  threads_eq : room.barrier.threads = threads
  length_eq : room.callers.length = threads + 1
  counts : room.Counts rounds
  arrived_lt : 0 < threads → room.barrier.arrived < threads
  generation_eq : room.barrier.generation = UInt64.ofNat rounds
  host : ∀ caller, room.callers[threads]? = some caller → caller.phase.generation? = none

/-- The callers beside one whose turn it is: they may have been woken. -/
def Beside (room room' : BarrierRoom) (index : Nat) : Prop :=
  ∀ other sibling', other ≠ index → room'.callers[other]? = some sibling' →
    ∃ sibling, room.callers[other]? = some sibling ∧ (sibling' = sibling ∨ sibling' = sibling.notified)

/-- A room behind a turn of one of its callers. -/
structure Passes (threads rounds : Nat) (room room' : BarrierRoom) (index : Nat) (before after : Caller) :
    Prop where
  attended : room'.Attended threads rounds
  own : room'.callers[index]? = some after
  others : room.Beside room' index
  /-- Only who has the lock wakes others. -/
  alone : before.phase.holdsLock = false → ∀ other, other ≠ index → room'.callers[other]? = room.callers[other]?

variable {threads rounds index : Nat} {room : BarrierRoom} {caller changed : Caller}

theorem getElem?_withCaller (hcaller : room.callers[index]? = some caller) (changed : Caller) :
    (room.withCaller index changed).callers[index]? = some changed :=
  List.getElem?_set_self (List.getElem?_eq_some_iff.mp hcaller).1

theorem getElem?_withCaller_of_ne {other : Nat} (hother : other ≠ index) :
    (room.withCaller index changed).callers[other]? = room.callers[other]? :=
  List.getElem?_set_ne (Ne.symm hother)

/-- A room in which one caller has changed. -/
theorem Passes.of_withCaller {room' : BarrierRoom} (hcallers : room'.callers = room.callers)
    (hcaller : room.callers[index]? = some caller)
    (h : (room'.withCaller index changed).Attended threads rounds) :
    Passes threads rounds room (room'.withCaller index changed) index caller changed where
  attended := h
  own := getElem?_withCaller (hcallers ▸ hcaller) changed
  others := by
    intro other sibling hother hsibling
    rw [getElem?_withCaller_of_ne hother, hcallers] at hsibling
    exact ⟨sibling, hsibling, .inl rfl⟩
  alone _ other hother := by rw [getElem?_withCaller_of_ne hother, hcallers]

/-- A caller is seen to arrive in a step if it leaves the phase in which it is about to. -/
theorem arrives_mem_deeds_iff (hcaller : room.callers[index]? = some caller)
    (hchanged : (room.step index).callers[index]? = some changed) :
    CallerDeed.arrives ∈ room.deeds (.steps index) ↔
      caller.phase = .arriving ∧ changed.phase ≠ .arriving := by
  have hdeeds : room.deeds (.steps index) = caller.deeds changed := by
    unfold deeds
    rw [show room.callers[(Turn.steps index).caller]? = some caller from hcaller,
      show (room.turn (.steps index)).callers[(Turn.steps index).caller]? = some changed from hchanged]
  have hreturns : CallerDeed.arrives ∉
      (changed.results.take (changed.results.length - caller.results.length)).map CallerDeed.returns := by
    intro hmem
    obtain ⟨_, _, h⟩ := List.mem_map.mp hmem
    cases h
  have hpoisons : CallerDeed.arrives ∉
      if caller.phase = .poisoning ∧ changed.phase ≠ .poisoning then [CallerDeed.poisons] else [] := by
    split <;> simp
  rw [hdeeds, Caller.deeds, List.mem_append, List.mem_append]
  constructor
  · rintro ((h | h) | h)
    · by_cases hboth : caller.phase = .arriving ∧ changed.phase ≠ .arriving
      · exact hboth
      · rw [if_neg hboth] at h
        cases h
    · exact absurd h hpoisons
    · exact absurd h hreturns
  · intro h
    rw [if_pos h]
    exact .inl (.inl List.mem_cons_self)

/-- All callers but the host have joined. -/
theorem countP_eq_of_hasJoined (hlength : room.callers.length = threads + 1)
    (hhost : ∀ host, room.callers[threads]? = some host → host.hasJoined rounds = false)
    (hjoined : ∀ other < threads, ∀ sibling, room.callers[other]? = some sibling →
      sibling.hasJoined rounds = true) : room.callers.countP (Caller.hasJoined rounds) = threads := by
  -- with a guest in place of the host they all have
  obtain ⟨host, hsome⟩ : ∃ host, room.callers[threads]? = some host :=
    ⟨_, List.getElem?_eq_getElem (by rw [hlength]; exact Nat.lt_succ_self threads)⟩
  have hcount := countP_withCaller (Caller.hasJoined rounds) (.guest rounds) hsome
  have hall : (room.withCaller threads (.guest rounds)).callers.countP (Caller.hasJoined rounds) = threads + 1 := by
    refine (List.countP_eq_length.mpr fun sibling hmem => ?_).trans (length_withCaller.trans hlength)
    obtain ⟨other, hother⟩ := List.getElem?_of_mem hmem
    have hlt : other < threads + 1 := by
      have := (List.getElem?_eq_some_iff.mp hother).1
      rwa [length_withCaller, hlength] at this
    refine forall_withCaller (P := fun _ sibling => sibling.hasJoined rounds = true)
      (Caller.hasJoined_guest rounds) (fun other sibling hne hsibling => ?_) other sibling hother
    have hle : other < threads + 1 := hlength ▸ (List.getElem?_eq_some_iff.mp hsibling).1
    exact hjoined other (Nat.lt_of_le_of_ne (Nat.lt_succ_iff.mp hle) hne) sibling hsibling
  rw [hall, hhost host hsome, Caller.hasJoined_guest, Bool.toNat_false, Bool.toNat_true] at hcount
  exact (Nat.succ.inj hcount).symm

namespace Attended

/-- The room of a new block. -/
theorem gather (threads : Nat) : (Drill.gather { threads := threads } (threads + 1)).Attended threads 0 where
  locked := .gather threads (threads + 1)
  threads_eq := rfl
  length_eq := List.length_replicate
  counts := by
    refine .of_eq (List.countP_eq_zero.mpr fun caller hcaller => ?_).symm
    rw [List.eq_of_mem_replicate hcaller]
    exact Bool.false_ne_true
  arrived_lt := id
  generation_eq := rfl
  host := by
    intro caller hcaller
    rw [List.eq_of_mem_replicate (List.mem_of_getElem? hcaller)]
    rfl

/-- A caller goes on where the lock allows it, and has joined the round after that if it had before. -/
theorem withCaller (h : room.Attended threads rounds) (hcaller : room.callers[index]? = some caller)
    (hlocked : (room.withCaller index changed).Locked)
    (hjoined : changed.hasJoined rounds = caller.hasJoined rounds ∨
      room.barrier.poisoned = true ∧ changed.hasJoined rounds = false)
    (hhost : index = threads → changed.phase.generation? = none) :
    Passes threads rounds room (room.withCaller index changed) index caller changed := by
  refine .of_withCaller rfl hcaller
    ⟨hlocked, h.threads_eq, List.length_set.trans h.length_eq, ?_, h.arrived_lt, h.generation_eq, ?_⟩
  · have hcount := countP_withCaller (Caller.hasJoined rounds) changed hcaller
    rcases hjoined with hsame | ⟨hp, hafter⟩
    · rw [hsame] at hcount
      have hsum := Nat.add_right_cancel hcount
      exact ⟨Nat.le_trans (Nat.le_of_eq hsum) h.counts.le, fun hcalm => (h.counts.eq hcalm).trans hsum.symm⟩
    · rw [hafter, Bool.toNat_false, Nat.add_zero] at hcount
      exact ⟨Nat.le_trans (Nat.le_of_add_right_le (Nat.le_of_eq hcount)) h.counts.le,
        fun hcalm => absurd (hp.symm.trans hcalm) nofun⟩
  · intro host hsome
    refine forall_withCaller (P := fun other caller => other = threads → caller.phase.generation? = none)
      hhost (fun other sibling _ hsibling he => ?_) threads host hsome rfl
    exact h.host sibling (he ▸ hsibling)

/-- A step after which a caller stands elsewhere. -/
theorem of_step_eq (h : room.Attended threads rounds) (hcaller : room.callers[index]? = some caller)
    (hstep : room.step index = room.withCaller index changed)
    (hjoined : changed.hasJoined rounds = caller.hasJoined rounds ∨
      room.barrier.poisoned = true ∧ changed.hasJoined rounds = false)
    (hhost : index = threads → changed.phase.generation? = none) :
    Passes threads rounds room (room.step index) index caller changed := by
  have hlocked := h.locked.turn (.steps index)
  change (room.step index).Locked at hlocked
  rw [hstep] at hlocked ⊢
  exact h.withCaller hcaller hlocked hjoined hhost

/-- Everyone is woken, and the lock is free again. -/
theorem notifies (h : room.Attended threads rounds) (hcaller : room.callers[index]? = some caller)
    {shown : BarrierRoom} (hcallers : shown.callers = room.callers)
    (hthreads : shown.barrier.threads = room.barrier.threads)
    (harrived : shown.barrier.arrived = room.barrier.arrived)
    (hpoisoned : shown.barrier.poisoned = room.barrier.poisoned)
    (hgeneration : shown.barrier.generation = room.barrier.generation)
    (hlocked : (shown.notifyAll.withCaller index changed).Locked)
    (hholds : caller.phase.holdsLock = true) (hafter : changed.phase = .idle) :
    Passes threads rounds room (shown.notifyAll.withCaller index changed) index caller changed := by
  have hbefore : caller.hasJoined rounds = false := by
    refine Caller.hasJoined_of_outside ?_
    cases hgeneration : caller.phase.generation? with
    | none => rfl
    | some generation => exact absurd (hholds.symm.trans (Phase.holdsLock_of_waiting hgeneration)) nofun
  have hmap : shown.notifyAll.callers = room.callers.map Caller.notified := by
    rw [notifyAll, hcallers]
  have hself : shown.notifyAll.callers[index]? = some caller.notified := by
    rw [hmap, List.getElem?_map, hcaller]
    rfl
  have hothers : ∀ (other : Nat) (sibling : Caller), shown.notifyAll.callers[other]? = some sibling →
      ∃ before : Caller, room.callers[other]? = some before ∧ sibling = before.notified := by
    intro other sibling hsibling
    rw [hmap, List.getElem?_map] at hsibling
    obtain ⟨before, hsome, hnotified⟩ := Option.map_eq_some_iff.mp hsibling
    exact ⟨before, hsome, hnotified.symm⟩
  refine ⟨⟨hlocked, hthreads.trans h.threads_eq, ?_, ?_, fun hpos => ?_, hgeneration.trans h.generation_eq, ?_⟩,
    getElem?_withCaller hself changed, fun other sibling hother hsibling => ?_,
    fun hfree => absurd (hholds.symm.trans hfree) nofun⟩
  · rw [length_withCaller, hmap, List.length_map]
    exact h.length_eq
  · have hcount := countP_withCaller (Caller.hasJoined rounds) changed hself
    have hwoken : shown.notifyAll.callers.countP (Caller.hasJoined rounds) =
        room.callers.countP (Caller.hasJoined rounds) := by
      rw [hmap, List.countP_map]
      exact List.countP_congr fun caller _ => by simp
    rw [Caller.hasJoined_notified, hbefore, Caller.hasJoined_of_outside (congrArg Phase.generation? hafter),
      hwoken] at hcount
    have hsum := Nat.add_right_cancel hcount
    exact ⟨Nat.le_trans (Nat.le_of_eq hsum) (Nat.le_trans h.counts.le (Nat.le_of_eq harrived.symm)),
      fun hcalm => (harrived.trans (h.counts.eq (hpoisoned.symm.trans hcalm))).trans hsum.symm⟩
  · exact harrived ▸ h.arrived_lt hpos
  · intro host hsome
    refine forall_withCaller (P := fun other caller => other = threads → caller.phase.generation? = none)
      (fun _ => congrArg Phase.generation? hafter) (fun other sibling _ hsibling he => ?_)
      threads host hsome rfl
    obtain ⟨before, hbefore, rfl⟩ := hothers other sibling hsibling
    rw [Caller.notified_generation?]
    exact h.host before (he ▸ hbefore)
  · rw [getElem?_withCaller_of_ne hother] at hsibling
    obtain ⟨before, hbefore, rfl⟩ := hothers other sibling hsibling
    exact ⟨before, hbefore, .inr rfl⟩

/-- A caller arrives that is not the last of its round. -/
theorem joins (h : room.Attended threads rounds) (hcaller : room.callers[index]? = some caller)
    (hlane : index < threads) (hcomes : caller.Comes rounds) (hp : room.barrier.poisoned = false)
    (hlast : room.barrier.arrived + 1 ≠ room.barrier.threads)
    (hlocked : (room.joined.withCaller index (caller.moveTo (.spinning room.barrier.generation 0))).Locked) :
    Passes threads rounds room (room.joined.withCaller index (caller.moveTo (.spinning room.barrier.generation 0)))
      index caller (caller.moveTo (.spinning room.barrier.generation 0)) := by
  have hcount := countP_withCaller (Caller.hasJoined rounds)
    (caller.moveTo (.spinning room.barrier.generation 0))
    (show room.joined.callers[index]? = some caller from hcaller)
  rw [hcomes.hasJoined, Caller.hasJoined_moveTo (Phase.generation?.eq_1 _ _) hcomes.length] at hcount
  refine .of_withCaller rfl hcaller
    ⟨hlocked, h.threads_eq, List.length_set.trans h.length_eq, ?_, fun hpos => ?_, h.generation_eq, ?_⟩
  · exact .of_eq ((congrArg (· + 1) (h.counts.eq hp)).trans hcount.symm)
  · exact Nat.lt_of_le_of_ne (h.arrived_lt hpos) (h.threads_eq ▸ hlast)
  · intro host hsome
    rw [getElem?_withCaller_of_ne (Nat.ne_of_gt hlane)] at hsome
    exact h.host host hsome

/-- When the last caller of a round arrives, all other lanes have joined it. -/
theorem hasJoined_of_last (h : room.Attended threads rounds) (hcaller : room.callers[index]? = some caller)
    (hlane : index < threads) (hcomes : caller.Comes rounds) (hp : room.barrier.poisoned = false)
    (hlast : room.barrier.arrived + 1 = room.barrier.threads) {other : Nat} (hlt : other < threads)
    (hother : other ≠ index) {sibling : Caller} (hsibling : room.callers[other]? = some sibling) :
    sibling.hasJoined rounds = true := by
  -- with the last caller and the host counted too, all callers of the room are
  obtain ⟨host, hhost⟩ : ∃ host, room.callers[threads]? = some host :=
    ⟨_, List.getElem?_eq_getElem (by rw [h.length_eq]; exact Nat.lt_succ_self threads)⟩
  have hone := countP_withCaller (Caller.hasJoined rounds) (.guest rounds) hcaller
  have hhost' : (room.withCaller index (.guest rounds)).callers[threads]? = some host := by
    rw [getElem?_withCaller_of_ne (Nat.ne_of_gt hlane)]
    exact hhost
  have htwo := countP_withCaller (Caller.hasJoined rounds) (.guest rounds) hhost'
  rw [hcomes.hasJoined, Caller.hasJoined_guest, ← h.counts.eq hp] at hone
  rw [Caller.hasJoined_of_outside (h.host host hhost), Caller.hasJoined_guest] at htwo
  rw [Bool.toNat_false, Nat.add_zero] at hone htwo
  rw [hone] at htwo
  refine List.countP_eq_length.mp (htwo.trans ?_) sibling (List.mem_of_getElem? (i := other) ?_)
  · rw [length_withCaller, length_withCaller, h.length_eq, ← h.threads_eq, ← hlast]
    rfl
  · rw [getElem?_withCaller_of_ne (Nat.ne_of_lt hlt), getElem?_withCaller_of_ne hother]
    exact hsibling

/-- A caller for whom all other lanes wait is the last of its round. -/
theorem last_of_hasJoined (h : room.Attended threads rounds) (hcaller : room.callers[index]? = some caller)
    (hlane : index < threads) (hcomes : caller.Comes rounds) (hp : room.barrier.poisoned = false)
    (hjoined : ∀ other < threads, other ≠ index → ∀ sibling, room.callers[other]? = some sibling →
      sibling.hasJoined rounds = true) : room.barrier.arrived + 1 = threads := by
  have hone := countP_withCaller (Caller.hasJoined rounds) (.guest rounds) hcaller
  have hall : (room.withCaller index (.guest rounds)).callers.countP (Caller.hasJoined rounds) = threads := by
    refine countP_eq_of_hasJoined (length_withCaller.trans h.length_eq) (fun host hhost => ?_)
      fun other hlt sibling hsibling => ?_
    · rw [getElem?_withCaller_of_ne (Nat.ne_of_gt hlane)] at hhost
      exact Caller.hasJoined_of_outside (h.host host hhost)
    · exact forall_withCaller (P := fun other sibling => other < threads → sibling.hasJoined rounds = true)
        (fun _ => Caller.hasJoined_guest rounds) (fun other sibling hne hsibling hlt => hjoined other hlt hne sibling
          hsibling) other sibling hsibling hlt
  rw [hall, hcomes.hasJoined, Caller.hasJoined_guest, ← h.counts.eq hp] at hone
  exact hone.symm

/-- The last caller of a round arrives. -/
theorem opens (h : room.Attended threads rounds) (hcaller : room.callers[index]? = some caller)
    (hlane : index < threads) (hcomes : caller.Comes rounds) (hp : room.barrier.poisoned = false)
    (hlast : room.barrier.arrived + 1 = room.barrier.threads)
    (hlocked : ((room.opening index).withCaller index (caller.moveTo .opening)).Locked) :
    Passes threads (rounds + 1) room ((room.opening index).withCaller index (caller.moveTo .opening)) index
      caller (caller.moveTo .opening) := by
  refine .of_withCaller rfl hcaller
    ⟨hlocked, h.threads_eq, List.length_set.trans h.length_eq, ?_, fun hpos => hpos, ?_, ?_⟩
  · -- nobody has joined the new round
    refine .of_eq (List.countP_eq_zero.mpr fun sibling hmem => ?_).symm
    obtain ⟨other, hother⟩ := List.getElem?_of_mem hmem
    refine ne_true_of_eq_false (forall_withCaller
      (P := fun _ sibling => sibling.hasJoined (rounds + 1) = false)
      rfl (fun other sibling hne hsibling => ?_) other sibling hother)
    have hlt : other < threads + 1 := h.length_eq ▸ (List.getElem?_eq_some_iff.mp hsibling).1
    rcases Nat.lt_succ_iff_lt_or_eq.mp hlt with hlt | rfl
    · have hjoined := h.hasJoined_of_last hcaller hlane hcomes hp hlast hlt hne hsibling
      exact Caller.hasJoined_of_leaving
        (congrArg (· + 1) (eq_of_beq (Bool.and_eq_true_iff.mp hjoined).2))
    · exact Caller.hasJoined_of_outside (h.host sibling hsibling)
  · change room.barrier.generation + 1 = _
    rw [h.generation_eq, UInt64.ofNat_add]
    rfl
  · intro host hsome
    rw [getElem?_withCaller_of_ne (Nat.ne_of_gt hlane)] at hsome
    exact h.host host hsome

end Attended

/-- A room with nobody's turn. -/
theorem Attended.passes_self (h : room.Attended threads rounds) (hcaller : room.callers[index]? = some caller) :
    Passes threads rounds room room index caller caller :=
  ⟨h, hcaller, fun _ sibling _ hsibling => ⟨sibling, hsibling, .inl rfl⟩, fun _ _ _ => rfl⟩

/-- Two turns of one caller. -/
theorem Passes.trans {room' room'' : BarrierRoom} {middle : Caller} {rounds' : Nat}
    (h : Passes threads rounds room room' index caller middle)
    (h' : Passes threads rounds' room' room'' index middle changed) (hfree : middle.phase.holdsLock = false) :
    Passes threads rounds' room room'' index caller changed where
  attended := h'.attended
  own := h'.own
  others := by
    intro other sibling hother hsibling
    rw [h'.alone hfree other hother] at hsibling
    exact h.others other sibling hother hsibling
  alone hbefore other hother := (h'.alone hfree other hother).trans (h.alone hbefore other hother)

/-! ## Steps -/

/-- What a step can do to a caller that waits: the number of rounds after it, and the caller after it. -/
inductive WaitStep (threads rounds : Nat) (room : BarrierRoom) (index : Nat) (caller : Caller) :
    Nat → Caller → Prop
  /-- Somebody else has the lock, or the caller is parked. -/
  | rests (h : room.step index = room) : WaitStep threads rounds room index caller rounds caller
  | refused (h : caller.Comes rounds) (hp : room.barrier.poisoned = true) :
    WaitStep threads rounds room index caller rounds (caller.returned .poisoned)
  | joins {changed : Caller} (h : caller.Comes rounds) (hp : room.barrier.poisoned = false)
    (hlast : room.barrier.arrived + 1 ≠ threads) (hjoined : changed.Joined rounds) :
    WaitStep threads rounds room index caller rounds changed
  /-- All other lanes have joined. -/
  | opens {changed : Caller} (h : caller.Comes rounds) (hp : room.barrier.poisoned = false)
    (hothers : ∀ other < threads, other ≠ index → ∀ sibling, room.callers[other]? = some sibling →
      sibling.hasJoined rounds = true)
    (hleaves : changed.Leaves (rounds + 1)) :
    WaitStep threads rounds room index caller (rounds + 1) changed
  | stays {changed : Caller} (h : caller.Joined rounds) (hjoined : changed.Joined rounds)
    (hpatience : changed.phase.patience < caller.phase.patience) :
    WaitStep threads rounds room index caller rounds changed
  | lingers {changed : Caller} (h : caller.Leaves rounds) (hleaves : changed.Leaves rounds)
    (hpatience : changed.phase.patience < caller.phase.patience) :
    WaitStep threads rounds room index caller rounds changed
  | passes (h : caller.Leaves rounds) :
    WaitStep threads rounds room index caller rounds (caller.returned .opened)
  | fails (h : caller.Joined rounds) (hp : room.barrier.poisoned = true) :
    WaitStep threads rounds room index caller rounds (caller.returned .poisoned)

/-- What a step does to a room and to a caller that waits. -/
structure WaitsOn (threads rounds : Nat) (room room' : BarrierRoom) (index : Nat) (caller : Caller)
    (rounds' : Nat) (changed : Caller) : Prop where
  passes : Passes threads rounds' room room' index caller changed
  poisoned_eq : room'.barrier.poisoned = room.barrier.poisoned
  step : WaitStep threads rounds room index caller rounds' changed

namespace Attended

/-- A step that does nothing. -/
theorem rests (h : room.Attended threads rounds) (hcaller : room.callers[index]? = some caller)
    (hstep : room.step index = room) : WaitsOn threads rounds room (room.step index) index caller rounds caller := by
  refine ⟨?_, congrArg (·.barrier.poisoned) hstep, .rests hstep⟩
  rw [hstep]
  exact h.passes_self hcaller

/-- The step of a caller that is about to arrive. -/
theorem step_of_comes (h : room.Attended threads rounds) (hcaller : room.callers[index]? = some caller)
    (hlane : index < threads) (hcomes : caller.Comes rounds) :
    ∃ rounds' changed, WaitsOn threads rounds room (room.step index) index caller rounds' changed := by
  have hstep : room.step index = if room.isFree then room.arrive index caller else room := by
    simp only [step, hcaller, hcomes.phase]
  have hlocked := h.locked.turn (.steps index)
  change (room.step index).Locked at hlocked
  by_cases hheld : room.isFree = false
  · rw [if_neg (hheld ▸ Bool.false_ne_true)] at hstep
    exact ⟨rounds, caller, h.rests hcaller hstep⟩
  rw [if_pos (eq_true_of_ne_false hheld), arrive] at hstep
  by_cases hp : room.barrier.poisoned = true
  · rw [if_pos hp] at hstep
    refine ⟨rounds, caller.returned .poisoned, ?_, congrArg (·.barrier.poisoned) hstep, .refused hcomes hp⟩
    exact h.of_step_eq hcaller hstep (.inl hcomes.hasJoined.symm) fun _ => rfl
  have hcalm := Bool.eq_false_iff.mpr hp
  rw [if_neg hp] at hstep
  by_cases hlast : room.barrier.arrived + 1 = room.barrier.threads
  · rw [if_pos hlast] at hstep
    have hopens := h.opens hcaller hlane hcomes hcalm hlast (hstep ▸ hlocked)
    refine ⟨rounds + 1, caller.moveTo .opening, ?_, congrArg (·.barrier.poisoned) hstep, .opens hcomes hcalm
      (fun other hlt hother sibling => h.hasJoined_of_last hcaller hlane hcomes hcalm hlast hlt hother)
      ⟨.inl rfl, congrArg (· + 1) hcomes.length⟩⟩
    rw [hstep]
    exact hopens
  · rw [if_neg hlast] at hstep
    have hjoins := h.joins hcaller hlane hcomes hcalm hlast (hstep ▸ hlocked)
    refine ⟨rounds, caller.moveTo (.spinning room.barrier.generation 0), ?_, congrArg (·.barrier.poisoned) hstep,
      .joins hcomes hcalm (h.threads_eq ▸ hlast) ⟨?_, hcomes.length⟩⟩
    · rw [hstep]
      exact hjoins
    · rw [Caller.moveTo_results, hcomes.length, ← h.generation_eq]
      rfl

/-- The step of a caller that opens the barrier. -/
theorem step_of_opening (h : room.Attended threads rounds) (hcaller : room.callers[index]? = some caller)
    (hleaves : caller.Leaves rounds) (hphase : caller.phase = .opening) :
    ∃ rounds' changed, WaitsOn threads rounds room (room.step index) index caller rounds' changed := by
  have hstep : room.step index = room.shown.withCaller index (caller.returned .opened) := by
    simp only [step, hcaller, hphase, shown]
  have hlocked := h.locked.turn (.steps index)
  change (room.step index).Locked at hlocked
  refine ⟨rounds, caller.returned .opened, ?_, congrArg (·.barrier.poisoned) hstep, .passes hleaves⟩
  rw [hstep] at hlocked ⊢
  exact h.notifies hcaller rfl rfl rfl rfl rfl hlocked (congrArg Phase.holdsLock hphase) rfl

/-- A caller that sees another generation than its own is behind the barrier. -/
theorem leaves_of_ne (h : room.Attended threads rounds) (hcaller : room.callers[index]? = some caller)
    {generation : UInt64} (hgeneration : caller.phase.generation? = some generation)
    (hwaits : caller.Joined rounds ∨ caller.Leaves rounds)
    (hne : room.barrier.shownGeneration ≠ generation ∨ room.barrier.generation ≠ generation) :
    caller.Leaves rounds := by
  refine hwaits.resolve_left fun hjoined => ?_
  have hown : generation = UInt64.ofNat rounds := by
    rw [← hjoined.length]
    exact Option.some.inj (hgeneration.symm.trans hjoined.generation)
  have hsame : room.barrier.generation = generation := h.generation_eq.trans hown.symm
  have hshown := hne.resolve_right (not_not_intro hsame)
  -- the barrier is being opened then, and a caller that has joined would be counted
  have hcounted : 0 < room.callers.countP (Caller.hasJoined rounds) :=
    List.countP_pos_iff.mpr ⟨caller, List.mem_of_getElem? hcaller, hjoined.hasJoined⟩
  have hle := h.counts.le
  rw [h.locked.arrived_eq (hsame ▸ hshown)] at hle
  exact absurd (Nat.lt_of_lt_of_le hcounted hle) (Nat.lt_irrefl 0)

/-- A caller that finds its own generation is in front of the barrier. -/
theorem joined_of_eq (h : room.Attended threads rounds) {generation : UInt64}
    (hgeneration : caller.phase.generation? = some generation)
    (hwaits : caller.Joined rounds ∨ caller.Leaves rounds) (hsame : room.barrier.generation = generation) :
    caller.Joined rounds := by
  refine hwaits.resolve_right fun hleaves => ?_
  have hown : generation = UInt64.ofNat caller.results.length := by
    rcases hleaves.stands with hopening | hstands
    · rw [hopening] at hgeneration
      cases hgeneration
    · exact Option.some.inj (hgeneration.symm.trans hstands)
  rw [h.generation_eq, hown, ← hleaves.length] at hsame
  exact ofNat_succ_ne _ hsame

/-- A caller goes on to wait. -/
theorem goesOn (h : room.Attended threads rounds) (hcaller : room.callers[index]? = some caller)
    (hlane : index < threads) (hwaits : caller.Joined rounds ∨ caller.Leaves rounds)
    {generation : UInt64} {phase : Phase} (hgeneration : caller.phase.generation? = some generation)
    (hphase : phase.generation? = some generation)
    (hstep : room.step index = room.withCaller index (caller.moveTo phase))
    (hpatience : phase.patience < caller.phase.patience) :
    WaitsOn threads rounds room (room.step index) index caller rounds (caller.moveTo phase) := by
  refine ⟨h.of_step_eq hcaller hstep (.inl ?_) fun he => absurd he (Nat.ne_of_lt hlane),
    congrArg (·.barrier.poisoned) hstep, ?_⟩
  · rw [Caller.hasJoined, Caller.hasJoined, Caller.moveTo_phase, Caller.moveTo_results, hphase, hgeneration]
  · rcases hwaits with hjoined | hleaves
    · exact .stays hjoined (hjoined.moveTo (hphase.trans hgeneration.symm)) hpatience
    · exact .lingers hleaves (hleaves.moveTo hgeneration hphase) hpatience

/-- A caller comes back from behind the barrier. -/
theorem comesBack (h : room.Attended threads rounds) (hcaller : room.callers[index]? = some caller)
    (hleaves : caller.Leaves rounds)
    (hstep : room.step index = room.withCaller index (caller.returned .opened)) :
    WaitsOn threads rounds room (room.step index) index caller rounds (caller.returned .opened) := by
  exact ⟨h.of_step_eq hcaller hstep (.inl hleaves.hasJoined.symm) fun _ => rfl,
    congrArg (·.barrier.poisoned) hstep, .passes hleaves⟩

/-- The step of a caller that has arrived and waits. -/
theorem step_of_generation (h : room.Attended threads rounds) (hcaller : room.callers[index]? = some caller)
    (hlane : index < threads) (hwaits : caller.Joined rounds ∨ caller.Leaves rounds) {generation : UInt64}
    (hgeneration : caller.phase.generation? = some generation) :
    ∃ rounds' changed, WaitsOn threads rounds room (room.step index) index caller rounds' changed := by
  have hback := fun (hne : room.barrier.shownGeneration ≠ generation ∨ room.barrier.generation ≠ generation) =>
    h.comesBack hcaller (h.leaves_of_ne hcaller hgeneration hwaits hne)
  obtain ⟨phase, results⟩ := caller
  cases phase with
  | spinning own round =>
    obtain rfl := Option.some.inj hgeneration
    by_cases hround : spinLimit ≤ round
    · have hstep : room.step index = room.withCaller index
          ((⟨.spinning own round, results⟩ : Caller).moveTo (.rechecking own)) := by
        simp only [step, hcaller, if_pos hround]
      exact ⟨rounds, _, h.goesOn hcaller hlane hwaits rfl rfl hstep (by simp only [Phase.patience]; omega)⟩
    by_cases hshown : room.barrier.shownGeneration = own
    · have hstep : room.step index = room.withCaller index
          ((⟨.spinning own round, results⟩ : Caller).moveTo (.peeking own round)) := by
        simp only [step, hcaller, if_neg hround, if_neg (not_not_intro hshown)]
      exact ⟨rounds, _, h.goesOn hcaller hlane hwaits rfl rfl hstep (by simp only [Phase.patience]; omega)⟩
    · have hstep : room.step index = room.withCaller index
          ((⟨.spinning own round, results⟩ : Caller).returned .opened) := by
        simp only [step, hcaller, if_neg hround, ne_eq, hshown, not_false_eq_true, if_true]
      exact ⟨rounds, _, hback (.inl hshown) hstep⟩
  | peeking own round =>
    obtain rfl := Option.some.inj hgeneration
    have hstep : room.step index = room.withCaller index ((⟨.peeking own round, results⟩ : Caller).moveTo
        (if room.barrier.shownPoisoned then .rechecking own else .spinning own (round + 1))) := by
      simp only [step, hcaller]
    refine ⟨rounds, _, h.goesOn hcaller hlane hwaits rfl ?_ hstep ?_⟩
    · split <;> rfl
    · split <;> (simp only [Phase.patience]; omega)
  | rechecking own =>
    obtain rfl := Option.some.inj hgeneration
    have hstep : room.step index =
        if room.isFree then room.recheck index ⟨.rechecking own, results⟩ own else room := by
      simp only [step, hcaller]
    by_cases hheld : room.isFree = false
    · rw [if_neg (hheld ▸ Bool.false_ne_true)] at hstep
      exact ⟨rounds, _, h.rests hcaller hstep⟩
    rw [if_pos (eq_true_of_ne_false hheld), recheck] at hstep
    by_cases hover : room.barrier.generation = own
    · have hjoined : (⟨.rechecking own, results⟩ : Caller).Joined rounds := h.joined_of_eq rfl hwaits hover
      rw [if_neg (not_not_intro hover)] at hstep
      by_cases hp : room.barrier.poisoned = true
      · rw [if_pos hp] at hstep
        exact ⟨rounds, _, h.of_step_eq hcaller hstep (.inr ⟨hp, rfl⟩) fun _ => rfl,
          congrArg (·.barrier.poisoned) hstep, .fails hjoined hp⟩
      · rw [if_neg hp] at hstep
        exact ⟨rounds, _, h.goesOn hcaller hlane hwaits rfl rfl hstep (by simp [Phase.patience])⟩
    · rw [if_pos hover] at hstep
      exact ⟨rounds, _, hback (.inr hover) hstep⟩
  | parked own =>
    have hstep : room.step index = room := by simp only [step, hcaller]
    exact ⟨rounds, _, h.rests hcaller hstep⟩
  | idle => cases hgeneration
  | arriving => cases hgeneration
  | opening => cases hgeneration
  | poisoning => cases hgeneration
  | exposing => cases hgeneration

/-- **What a step does to a caller that waits.** -/
theorem wait_step (h : room.Attended threads rounds) (hcaller : room.callers[index]? = some caller)
    (hlane : index < threads) (hwaits : caller.Waits rounds) :
    ∃ rounds' changed, WaitsOn threads rounds room (room.step index) index caller rounds' changed := by
  cases hwaits with
  | comes hcomes => exact h.step_of_comes hcaller hlane hcomes
  | joined hjoined => exact h.step_of_generation hcaller hlane (.inl hjoined) hjoined.generation
  | leaves hleaves =>
    rcases hleaves.stands with hopening | hgeneration
    · exact h.step_of_opening hcaller hleaves hopening
    · exact h.step_of_generation hcaller hlane (.inr hleaves) hgeneration

end Attended

/-! ## Poisoning -/

/-- What a step can do to a caller that poisons the barrier: the caller after it, and whether the barrier is poisoned
then. -/
inductive PoisonStep (room : BarrierRoom) (index : Nat) (caller : Caller) : Caller → Bool → Prop
  /-- Somebody else has the lock. -/
  | rests (h : room.step index = room) : PoisonStep room index caller caller room.barrier.poisoned
  | closes (h : caller.phase = .poisoning) : PoisonStep room index caller (caller.moveTo .exposing) true
  | exposes (h : caller.phase = .exposing) : PoisonStep room index caller (caller.moveTo .idle) true

namespace Attended

/-- **What a step does to a caller that poisons the barrier.** -/
theorem poison_step (h : room.Attended threads rounds) (hcaller : room.callers[index]? = some caller)
    (hphase : caller.phase = .poisoning ∨ caller.phase = .exposing) :
    ∃ changed, Passes threads rounds room (room.step index) index caller changed ∧
      PoisonStep room index caller changed (room.step index).barrier.poisoned := by
  have hlocked := h.locked.turn (.steps index)
  change (room.step index).Locked at hlocked
  rcases hphase with hphase | hphase
  · have hstep : room.step index =
        if room.isFree then (room.closing index).withCaller index (caller.moveTo .exposing) else room := by
      simp only [step, hcaller, hphase, closing]
    by_cases hheld : room.isFree = false
    · rw [if_neg (hheld ▸ Bool.false_ne_true)] at hstep
      refine ⟨caller, ?_, ?_⟩
      · rw [hstep]
        exact ⟨h, hcaller, fun _ sibling _ hsibling => ⟨sibling, hsibling, .inl rfl⟩, fun _ _ _ => rfl⟩
      · rw [show (room.step index).barrier.poisoned = room.barrier.poisoned from congrArg (·.barrier.poisoned) hstep]
        exact .rests hstep
    · rw [if_pos (eq_true_of_ne_false hheld)] at hstep
      rw [hstep] at hlocked ⊢
      refine ⟨caller.moveTo .exposing, .of_withCaller rfl hcaller
        ⟨hlocked, h.threads_eq, List.length_set.trans h.length_eq, ⟨?_, fun hcalm => Bool.noConfusion hcalm⟩,
          h.arrived_lt, h.generation_eq, ?_⟩, .closes hphase⟩
      · have hcount := countP_withCaller (Caller.hasJoined rounds) (caller.moveTo .exposing)
          (show (room.closing index).callers[index]? = some caller from hcaller)
        rw [Caller.hasJoined_of_outside (congrArg Phase.generation? hphase),
          Caller.hasJoined_of_outside (show (caller.moveTo .exposing).phase.generation? = none from rfl)] at hcount
        exact Nat.le_trans (Nat.le_of_eq hcount) h.counts.le
      · intro host hsome
        exact forall_withCaller (P := fun other caller => other = threads → caller.phase.generation? = none)
          (fun _ => rfl)
          (fun other sibling _ hsibling he => h.host sibling (he ▸ hsibling)) threads host hsome rfl
  · have hstep : room.step index = room.exposed.withCaller index (caller.moveTo .idle) := by
      simp only [step, hcaller, hphase, exposed]
    rw [hstep] at hlocked ⊢
    obtain ⟨_, hp⟩ := h.locked.exposing index caller hcaller hphase
    refine ⟨caller.moveTo .idle, h.notifies hcaller rfl rfl rfl rfl rfl hlocked
      (congrArg Phase.holdsLock hphase) rfl, ?_⟩
    rw [show (room.exposed.withCaller index (caller.moveTo .idle)).barrier.poisoned = true from hp]
    exact .exposes hphase

/-! ## Calls and wake-ups -/

/-- An idle caller begins a call. -/
theorem call (h : room.Attended threads rounds) (hcaller : room.callers[index]? = some caller)
    (hidle : caller.phase = .idle) {phase : Phase} (hphase : phase = .arriving ∨ phase = .poisoning) :
    Passes threads rounds room (room.call index phase) index caller (caller.moveTo phase) := by
  obtain ⟨now, results⟩ := caller
  obtain rfl : now = .idle := hidle
  have hcall : room.call index phase = room.withCaller index ((⟨.idle, results⟩ : Caller).moveTo phase) := by
    simp only [BarrierRoom.call, hcaller]
    rfl
  have hgeneration : phase.generation? = none := by
    rcases hphase with rfl | rfl <;> rfl
  rw [hcall]
  refine h.withCaller hcaller (h.locked.withCaller_awake hcaller rfl ?_ ?_) (.inl ?_) fun _ => hgeneration
  · rcases hphase with rfl | rfl <;> rfl
  · rcases hphase with rfl | rfl <;> (intro generation hparked; cases hparked)
  · rw [Caller.hasJoined_of_outside hgeneration]
    rfl

/-- Someone may wake up whom nobody has woken. -/
theorem wake (h : room.Attended threads rounds) (index : Nat) :
    (room.wake index).Attended threads rounds ∧
      (room.wake index).barrier.poisoned = room.barrier.poisoned ∧
      ∀ (other : Nat) (sibling' : Caller), (room.wake index).callers[other]? = some sibling' →
        ∃ sibling : Caller, room.callers[other]? = some sibling ∧
          (sibling' = sibling ∨ sibling' = sibling.notified) := by
  cases hcaller : room.callers[index]? with
  | none =>
    have hwake : room.wake index = room := by simp only [BarrierRoom.wake, hcaller]
    rw [hwake]
    exact ⟨h, rfl, fun _ sibling hsibling => ⟨sibling, hsibling, .inl rfl⟩⟩
  | some caller =>
    have hwake : room.wake index = room.withCaller index caller.notified := by
      simp only [BarrierRoom.wake, hcaller]
    have hlocked := h.locked.turn (.wakes index)
    change (room.wake index).Locked at hlocked
    rw [hwake] at hlocked ⊢
    have hpasses := h.withCaller hcaller hlocked (.inl Caller.hasJoined_notified) fun he => by
      rw [Caller.notified_generation?]
      exact h.host caller (he ▸ hcaller)
    refine ⟨hpasses.attended, rfl, fun other sibling hsibling => ?_⟩
    by_cases he : other = index
    · subst he
      obtain rfl := Option.some.inj (hpasses.own.symm.trans hsibling)
      exact ⟨caller, hcaller, .inr rfl⟩
    · exact hpasses.others other sibling he hsibling

end Attended

end BarrierRoom

end BlockMachine
