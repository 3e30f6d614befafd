import BlockMachine.Proofs.Barrier.Accounts
import Mathlib.Algebra.Ring.Nat

/-!
# The balance of a barrier

* `Ledger.Balanced` — what a barrier and the ledger of its waits say of each other.
* `BarrierRoom.accounts_balance` — they balance after any run, of any number of callers.  Of the waits counted
  before a poisoning those of the complete generations are answered with `opened` and the others with
  `poisoned`, and all of them can still be answered.
* `BarrierRoom.exists_step_work_lt` — at a poisoned barrier somebody can always go on while a wait has no
  answer.
-/

set_option autoImplicit false

namespace BlockMachine

/-- A count of the entries that hold, when these are the first ones. -/
theorem countP_eq_of_prefix {α : Type} (p : α → Bool) :
    ∀ (entries : List α) (count : Nat), count ≤ entries.length →
      (∀ index entry, entries[index]? = some entry → (p entry = true ↔ index < count)) →
      entries.countP p = count
  | [], count, hle, _ => (Nat.le_zero.mp hle).symm
  | entry :: entries, 0, _, h =>
    List.countP_eq_zero.mpr fun other hother hp => by
      obtain ⟨index, hindex⟩ := List.getElem?_of_mem hother
      exact Nat.not_lt_zero index ((h index other hindex).mp hp)
  | entry :: entries, count + 1, hle, h => by
    have hfirst : p entry = true := (h 0 entry rfl).mpr (Nat.succ_pos count)
    have hrest := countP_eq_of_prefix p entries count (Nat.le_of_succ_le_succ hle)
      fun index other hother => (h (index + 1) other hother).trans Nat.succ_lt_succ_iff
    rw [List.countP_cons, hrest, if_pos hfirst]

/-- A sum after one of the summands has changed. -/
theorem sum_map_set {α : Type} (weight : α → Nat) (changed : α) :
    ∀ {entries : List α} {index : Nat} {entry : α}, entries[index]? = some entry →
      ((entries.set index changed).map weight).sum + weight entry =
        (entries.map weight).sum + weight changed
  | _ :: entries, 0, entry, h => by
    obtain rfl := Option.some.inj h
    simp only [List.set_cons_zero, List.map_cons, List.sum_cons]
    omega
  | other :: entries, index + 1, entry, h => by
    have hrest := sum_map_set weight changed (show entries[index]? = some entry from h)
    simp only [List.set_cons_succ, List.map_cons, List.sum_cons]
    omega

namespace Ledger

/-- What a barrier and the ledger of its waits say of each other. -/
structure Balanced (threads : Nat) (ledger : Ledger) (room : BarrierRoom) : Prop where
  arrived_lt : room.barrier.arrived < threads
  counted_eq : ledger.counted.length = threads * room.barrier.generation.toNat + room.barrier.arrived
  closed_eq : room.barrier.poisoned = ledger.closed
  /-- Whenever the lock is free, what is shown is so. -/
  shown : room.holder = none → room.barrier.shownGeneration = room.barrier.generation ∧
    room.barrier.shownPoisoned = room.barrier.poisoned
  /-- Nobody sleeps who has nothing to wait for. -/
  parked : room.holder = none → ∀ caller ∈ room.callers, ∀ generation,
    caller.phase = .parked generation →
      room.barrier.generation = generation ∧ room.barrier.poisoned = false
  /-- A counted wait belongs to the generation of its number, and is over when that is complete. -/
  opened : ∀ wait, ledger.Answered wait .opened → threads * (wait / threads + 1) ≤ ledger.counted.length
  /-- A counted wait fails when the poisoning left its generation incomplete. -/
  poisoned : ∀ wait, ledger.Answered wait .poisoned →
    ledger.closed = true ∧ ledger.counted.length < threads * (wait / threads + 1)
  /-- Waits that came after the poisoning have failed. -/
  late : ∀ entry ∈ ledger.late, entry.answer = some .poisoned
  same : ∀ wait other result answer, wait / threads = other / threads →
    ledger.Answered wait result → ledger.Answered other answer → result = answer
  opened_count : (∀ caller wait, ¬ ledger.Pending caller wait) →
    ledger.counted.countP (fun entry => entry.answer == some .opened) =
      ledger.counted.length - ledger.counted.length % threads

variable {ledger : Ledger}

/-- Once the barrier is poisoned no wait is counted any more. -/
theorem enter_of_closed (hclosed : ledger.closed = true) (deed : Nat × CallerDeed) :
    (ledger.enter deed).closed = true ∧ (ledger.enter deed).counted.length = ledger.counted.length := by
  obtain ⟨caller, deed⟩ := deed
  cases deed with
  | arrives =>
    rw [enter_arrives_of_closed hclosed]
    exact ⟨hclosed, rfl⟩
  | poisons => exact ⟨rfl, rfl⟩
  | returns result => exact ⟨hclosed, length_returns⟩

theorem foldl_enter_of_closed (log : List (Nat × CallerDeed)) :
    ∀ {ledger : Ledger}, ledger.closed = true → (log.foldl enter ledger).closed = true ∧
      (log.foldl enter ledger).counted.length = ledger.counted.length := by
  induction log with
  | nil => exact fun h => ⟨h, rfl⟩
  | cons deed log ih =>
    intro ledger hclosed
    obtain ⟨hnext, hlength⟩ := enter_of_closed hclosed deed
    obtain ⟨hrest, hsame⟩ := ih hnext
    exact ⟨hrest, hsame.trans hlength⟩

/-- An entry without pending waits has an answer. -/
theorem answered_of_not_pending {wait : Nat} {entry : LedgerEntry}
    (hentry : ledger.counted[wait]? = some entry) (hnone : ∀ caller, ¬ ledger.Pending caller wait) :
    ∃ result, entry.answer = some result ∧ ledger.Answered wait result := by
  obtain ⟨caller, answer⟩ := entry
  cases answer with
  | none => exact absurd hentry (hnone caller)
  | some result => exact ⟨result, rfl, caller, hentry⟩

end Ledger

namespace BarrierRoom

variable {threads : Nat} {ledger : Ledger} {room : BarrierRoom}

/-! ## Runs -/

theorem Accounted.run (hthreads : 0 < threads) (turns : List Turn) :
    ∀ {room : BarrierRoom} {ledger : Ledger}, room.Accounted threads ledger → room.Locked →
      (room.run turns).Accounted threads ((room.log turns).foldl Ledger.enter ledger) := by
  induction turns with
  | nil => exact fun h _ => h
  | cons turn turns ih =>
    intro room ledger h hlocked
    rw [log, List.foldl_append]
    exact ih (h.turn hlocked hthreads turn) (hlocked.turn turn)

/-- A new barrier with an empty ledger. -/
theorem Accounted.gather (threads callers : Nat) :
    (Drill.gather { threads := threads } callers).Accounted threads {} where
  books := by
    refine ⟨rfl, (Nat.zero_mod threads).symm, ?_, rfl, nofun, nofun⟩
    rw [show (({} : Ledger).counted.length / threads) = 0 from Nat.zero_div threads]
    rfl
  seats index caller hcaller := by
    obtain rfl := List.eq_of_mem_replicate (List.mem_of_getElem? hcaller)
    exact ⟨nofun, nofun, fun _ _ _ => nofun⟩
  present := nofun

theorem log_append (turns more : List Turn) :
    ∀ room : BarrierRoom, room.log (turns ++ more) = room.log turns ++ (room.run turns).log more := by
  induction turns with
  | nil => exact fun _ => rfl
  | cons turn turns ih =>
    intro room
    rw [List.cons_append, log, log, ih, List.append_assoc]
    rfl

/-! ## Balance -/

/-- Who is told that the barrier is poisoned is in the generation that the poisoning left incomplete. -/
theorem Accounted.generation_of_poisoned (h : room.Accounted threads ledger)
    (hbound : ledger.counted.length / threads < 2 ^ 64) {wait : Nat} (hwait : ledger.Answered wait .poisoned) :
    wait / threads = ledger.counted.length / threads := by
  obtain ⟨-, heq⟩ : _ ∧ _ := h.books.answers wait .poisoned hwait
  have hle : wait / threads ≤ ledger.counted.length / threads := Nat.div_le_div_right (Nat.le_of_lt hwait.lt)
  have hmod := congrArg UInt64.toNat heq
  rwa [UInt64.toNat_ofNat', UInt64.toNat_ofNat', Nat.mod_eq_of_lt (Nat.lt_of_le_of_lt hle hbound),
    Nat.mod_eq_of_lt hbound] at hmod

theorem Accounted.opened_count (h : room.Accounted threads ledger) (hthreads : 0 < threads)
    (hbound : ledger.counted.length / threads < 2 ^ 64)
    (hnone : ∀ caller wait, ¬ ledger.Pending caller wait) :
    ledger.counted.countP (fun entry => entry.answer == some .opened) =
      ledger.counted.length - ledger.counted.length % threads := by
  refine countP_eq_of_prefix _ _ _ (Nat.sub_le _ _) fun wait entry hentry => ?_
  obtain ⟨result, hresult, hanswered⟩ := Ledger.answered_of_not_pending hentry fun caller => hnone caller wait
  have hcomplete : ledger.counted.length - ledger.counted.length % threads =
      ledger.counted.length / threads * threads := by
    have := Nat.div_add_mod ledger.counted.length threads
    rw [Nat.mul_comm]
    omega
  rw [hresult, hcomplete, ← Nat.div_lt_iff_lt_mul hthreads]
  cases result with
  | opened => exact iff_of_true rfl (h.books.answers wait .opened hanswered)
  | poisoned =>
    exact iff_of_false nofun (h.generation_of_poisoned hbound hanswered ▸ Nat.lt_irrefl _)

theorem Accounted.balanced (h : room.Accounted threads ledger) (hlocked : room.Locked) (hthreads : 0 < threads)
    (hbound : ledger.counted.length / threads < 2 ^ 64) : ledger.Balanced threads room where
  arrived_lt := h.books.arrived_eq ▸ Nat.mod_lt _ hthreads
  counted_eq := by
    rw [h.books.generation_eq, UInt64.toNat_ofNat', Nat.mod_eq_of_lt hbound, h.books.arrived_eq]
    exact (Nat.div_add_mod _ _).symm
  closed_eq := h.books.poisoned_eq
  shown hfree := ⟨hlocked.generation_eq hfree, hlocked.poisoned_eq hfree⟩
  parked := by
    intro hfree caller hcaller generation hphase
    obtain ⟨index, hindex⟩ := List.getElem?_of_mem hcaller
    exact hlocked.parked hfree index caller hindex generation hphase
  opened wait hwait := by
    have hlt : wait / threads < ledger.counted.length / threads := h.books.answers wait .opened hwait
    exact Nat.le_trans (Nat.mul_le_mul_left threads hlt) (Nat.mul_div_le _ _)
  poisoned wait hwait := by
    refine ⟨(h.books.answers wait .poisoned hwait).1, ?_⟩
    rw [h.generation_of_poisoned hbound hwait]
    exact Nat.lt_mul_div_succ _ hthreads
  late := h.books.late
  same := by
    have hapart : ∀ wait other, wait / threads = other / threads → ledger.Answered wait .opened →
        ¬ ledger.Answered other .poisoned := by
      intro wait other hsame hwait hother
      have hlt : wait / threads < ledger.counted.length / threads := h.books.answers wait .opened hwait
      rw [hsame, h.generation_of_poisoned hbound hother] at hlt
      exact Nat.lt_irrefl _ hlt
    intro wait other result answer hsame hwait hother
    cases result with
    | opened =>
      cases answer with
      | opened => rfl
      | poisoned => exact absurd hother (hapart wait other hsame hwait)
    | poisoned =>
      cases answer with
      | opened => exact absurd hwait (hapart other wait hsame.symm hother)
      | poisoned => rfl
  opened_count := h.opened_count hthreads hbound

/-! ## The waits that a poisoning releases -/

end BarrierRoom

/-- The steps that a caller can still take in its call once the poison is shown. -/
def Phase.work : Phase → Nat
  | .spinning _ _ => 3
  | .peeking _ _ | .parked _ => 2
  | .rechecking _ | .opening | .exposing => 1
  | .idle | .arriving | .poisoning => 0

namespace BarrierRoom

variable {threads index : Nat} {ledger : Ledger} {room : BarrierRoom} {caller changed : Caller}

/-- The steps that all callers can take. -/
def work (room : BarrierRoom) : Nat := (room.callers.map fun caller => caller.phase.work).sum

theorem work_withCaller_lt (hcaller : room.callers[index]? = some caller)
    (hlt : changed.phase.work < caller.phase.work) : (room.withCaller index changed).work < room.work := by
  have hsum := sum_map_set (fun caller : Caller => caller.phase.work) changed hcaller
  change ((room.callers.set index changed).map _).sum < (room.callers.map _).sum
  omega

theorem work_notifyAll_le (room : BarrierRoom) : room.notifyAll.work ≤ room.work := by
  change ((room.callers.map Caller.notified).map _).sum ≤ (room.callers.map _).sum
  rw [List.map_map]
  generalize room.callers = callers
  induction callers with
  | nil => exact Nat.le_refl _
  | cons caller callers ih =>
    have hle : caller.notified.phase.work ≤ caller.phase.work := by
      obtain ⟨phase, results⟩ := caller
      cases phase with
      | parked generation => exact Nat.le_succ 1
      | _ => exact Nat.le_refl _
    simp only [List.map_cons, List.sum_cons, Function.comp_apply]
    omega

/-- Who holds the lock can give it back. -/
theorem step_work_lt_of_holdsLock (hcaller : room.callers[index]? = some caller)
    (hlocks : caller.phase.holdsLock = true) : (room.step index).work < room.work := by
  have hawake : caller.phase.generation? = none := by
    cases hgeneration : caller.phase.generation? with
    | none => rfl
    | some generation => exact absurd (hlocks.symm.trans (Phase.holdsLock_of_waiting hgeneration)) nofun
  have hnotified : ∀ {room' : BarrierRoom} {changed : Caller}, room'.callers = room.callers →
      changed.phase.work < caller.phase.work →
        (room'.notifyAll.withCaller index changed).work < room.work := by
    intro room' changed hcallers hlt
    have hsame : room'.notifyAll.callers[index]? = some caller :=
      getElem?_notifyAll (hcallers ▸ hcaller) hawake
    have hle : room'.notifyAll.work ≤ room.work := by
      have := work_notifyAll_le room'
      rwa [show room'.work = room.work by rw [work, work, hcallers]] at this
    exact Nat.lt_of_lt_of_le (work_withCaller_lt hsame hlt) hle
  unfold step
  rw [hcaller]
  obtain ⟨phase, results⟩ := caller
  cases phase with
  | opening => exact hnotified rfl Nat.zero_lt_one
  | exposing => exact hnotified rfl Nat.zero_lt_one
  | _ => cases hlocks

/-- Who waits and is awake goes on once the poison is shown and the lock is free. -/
theorem step_work_lt_of_waiting (hfree : room.holder = none) (hpoisoned : room.barrier.poisoned = true)
    (hshown : room.barrier.shownPoisoned = true) (hcaller : room.callers[index]? = some caller)
    {generation : UInt64} (hgeneration : caller.phase.generation? = some generation)
    (hawake : caller.phase ≠ .parked generation) : (room.step index).work < room.work := by
  have hisFree : room.isFree = true := isFree_eq_true_iff.mpr hfree
  unfold step
  rw [hcaller]
  obtain ⟨phase, results⟩ := caller
  cases phase with
  | spinning generation round =>
    dsimp only
    split
    · exact work_withCaller_lt hcaller (by decide : (1 : Nat) < 3)
    · split
      · exact work_withCaller_lt hcaller (by decide : (0 : Nat) < 3)
      · exact work_withCaller_lt hcaller (by decide : (2 : Nat) < 3)
  | peeking generation round =>
    dsimp only
    rw [if_pos hshown]
    exact work_withCaller_lt hcaller (by decide : (1 : Nat) < 2)
  | rechecking generation =>
    dsimp only
    rw [if_pos hisFree]
    rw [recheck, if_pos hpoisoned]
    split <;> exact work_withCaller_lt hcaller Nat.zero_lt_one
  | parked generation' =>
    obtain rfl := Option.some.inj hgeneration
    exact absurd rfl hawake
  | _ => cases hgeneration

/-- **At a poisoned barrier somebody can go on while a wait has no answer.** -/
theorem exists_step_work_lt (h : room.Accounted threads ledger) (hlocked : room.Locked)
    (hclosed : ledger.closed = true) {wait : Nat} (hpending : ledger.Pending index wait) :
    ∃ mover, (room.step mover).work < room.work := by
  have hpoisoned : room.barrier.poisoned = true := h.books.poisoned_eq.trans hclosed
  cases hholder : room.holder with
  | some holder =>
    obtain ⟨owner, howner, hlocks⟩ := hlocked.held holder hholder
    exact ⟨holder, step_work_lt_of_holdsLock howner hlocks⟩
  | none =>
    obtain ⟨caller, hcaller⟩ : ∃ caller, room.callers[index]? = some caller :=
      ⟨_, List.getElem?_eq_getElem (h.present index wait hpending)⟩
    refine ⟨index, ?_⟩
    cases hgeneration : caller.phase.generation? with
    | none =>
      have hopening : caller.phase = .opening := Decidable.byContradiction fun hne =>
        (h.seats index caller hcaller).outside hgeneration hne wait hpending
      have hlocks := hlocked.holder_eq index caller hcaller (congrArg Phase.holdsLock hopening)
      exact absurd (hlocks.symm.trans hholder) nofun
    | some generation =>
      have hshown := (hlocked.poisoned_eq hholder).trans hpoisoned
      refine step_work_lt_of_waiting hholder hpoisoned hshown hcaller hgeneration fun hparked => ?_
      have := (hlocked.parked hholder index caller hcaller generation hparked).2
      exact absurd (hpoisoned.symm.trans this) nofun

/-- A poisoned barrier can answer all waits. -/
theorem exists_run_answered (hthreads : 0 < threads) :
    ∀ (room : BarrierRoom) (ledger : Ledger), room.Accounted threads ledger → room.Locked →
      ledger.closed = true → ∃ more : List Turn,
        ∀ caller wait, ¬ ((room.log more).foldl Ledger.enter ledger).Pending caller wait := by
  intro room
  induction hwork : room.work using Nat.strongRecOn generalizing room with
  | ind work ih =>
    intro ledger h hlocked hclosed
    by_cases hpending : ∃ caller wait, ledger.Pending caller wait
    · obtain ⟨caller, wait, hpending⟩ := hpending
      obtain ⟨mover, hlt⟩ := exists_step_work_lt h hlocked hclosed hpending
      obtain ⟨more, hmore⟩ := ih _ (hwork ▸ hlt) (room.turn (.steps mover)) rfl _
        (h.turn hlocked hthreads (.steps mover)) (hlocked.turn (.steps mover))
        (Ledger.foldl_enter_of_closed _ hclosed).1
      refine ⟨.steps mover :: more, ?_⟩
      rw [log, List.foldl_append]
      exact hmore
    · exact ⟨[], fun caller wait hp => hpending ⟨caller, wait, hp⟩⟩

/-- **The accounts of a barrier balance**, for any number of callers in any interleaving of their steps and
of any poisonings, as long as its counter has not gone round.  When it has been poisoned, the callers can
go on until all waits are answered: those of the complete generations are answered with `opened`. -/
theorem accounts_balance {threads : Nat} (hthreads : 0 < threads) (callers : Nat) (turns : List Turn)
    (hbound : (Ledger.ofTurns threads callers turns).counted.length / threads < 2 ^ 64) :
    (Ledger.ofTurns threads callers turns).Balanced threads
        ((Drill.gather { threads := threads } callers).run turns) ∧
      ((Ledger.ofTurns threads callers turns).closed = true →
        ∃ more : List Turn,
          let arrivals := (Ledger.ofTurns threads callers turns).counted.length
          let ledger := Ledger.ofTurns threads callers (turns ++ more)
          (∀ caller wait, ¬ ledger.Pending caller wait) ∧ ledger.counted.length = arrivals ∧
            ledger.counted.countP (fun entry => entry.answer == some .opened) =
              arrivals - arrivals % threads) := by
  have haccounted : ∀ turns, ((Drill.gather { threads := threads } callers).run turns).Accounted threads
      (Ledger.ofTurns threads callers turns) :=
    fun turns => (Accounted.gather threads callers).run hthreads turns (Locked.gather threads callers)
  have hlocked : ((Drill.gather { threads := threads } callers).run turns).Locked :=
    (Locked.gather threads callers).run turns
  refine ⟨(haccounted turns).balanced hlocked hthreads hbound, fun hclosed => ?_⟩
  obtain ⟨more, hmore⟩ := exists_run_answered hthreads _ _ (haccounted turns) hlocked hclosed
  have hledger : Ledger.ofTurns threads callers (turns ++ more) =
      (((Drill.gather { threads := threads } callers).run turns).log more).foldl Ledger.enter
        (Ledger.ofTurns threads callers turns) := by
    simp only [Ledger.ofTurns, Ledger.ofLog, log_append, List.foldl_append]
  have hlength : (Ledger.ofTurns threads callers (turns ++ more)).counted.length =
      (Ledger.ofTurns threads callers turns).counted.length :=
    hledger ▸ (Ledger.foldl_enter_of_closed _ hclosed).2
  rw [← hledger] at hmore
  refine ⟨more, hmore, hlength, ?_⟩
  rw [← hlength] at hbound ⊢
  exact (haccounted (turns ++ more)).opened_count hthreads hbound hmore

/-- Three callers wait at a barrier for two, and a fourth one poisons it.  The first of them has not seen yet
that its generation is complete. -/
def stranding : List Turn :=
  [.waits 0, .steps 0, .waits 1, .steps 1, .steps 1, .waits 2, .steps 2, .poisons 3, .steps 3, .steps 3]

theorem accounts_balance_stranding :
    (Ledger.ofTurns 2 4 stranding).counted = [⟨0, none⟩, ⟨1, some .opened⟩, ⟨2, none⟩] ∧
      (Ledger.ofTurns 2 4 stranding).closed = true ∧
      (Ledger.ofTurns 2 4 stranding).Balanced 2 ((Drill.gather { threads := 2 } 4).run stranding) ∧
      ∃ more : List Turn,
        let ledger := Ledger.ofTurns 2 4 (stranding ++ more)
        (∀ caller wait, ¬ ledger.Pending caller wait) ∧ ledger.counted.length = 3 ∧
          ledger.counted.countP (fun entry => entry.answer == some .opened) = 3 - 3 % 2 := by
  have hcounted : (Ledger.ofTurns 2 4 stranding).counted = [⟨0, none⟩, ⟨1, some .opened⟩, ⟨2, none⟩] := by
    decide
  have hbound : (Ledger.ofTurns 2 4 stranding).counted.length / 2 < 2 ^ 64 := by
    rw [hcounted]
    decide
  obtain ⟨hbalanced, hreleased⟩ := accounts_balance (by decide : 0 < 2) 4 stranding hbound
  refine ⟨hcounted, by decide, hbalanced, ?_⟩
  rw [hcounted] at hreleased
  exact hreleased (by decide)

end BarrierRoom

end BlockMachine
