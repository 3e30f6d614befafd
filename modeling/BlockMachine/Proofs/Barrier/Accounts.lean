import BlockMachine.Proofs.Barrier.Lock

/-!
# The accounts of a barrier

* `Ledger.pending_arrives`, `Ledger.pending_returns` and their like — what an entry changes in a ledger.
* `Barrier.Books` — the fields of a barrier are those that its ledger says.
* `Ledger.Seat` — a caller has one wait without an answer, or none, as its phase says.
* `BarrierRoom.Accounted.turn` — a turn keeps the ledger in agreement with the room.
-/

set_option autoImplicit false

namespace BlockMachine

/-! ## Entries of a ledger -/

namespace Ledger

variable {ledger : Ledger} {caller other wait : Nat} {result answer : WaitResult}

theorem Pending.lt (h : ledger.Pending caller wait) : wait < ledger.counted.length :=
  (List.getElem?_eq_some_iff.mp h).1

theorem Answered.lt (h : ledger.Answered wait result) : wait < ledger.counted.length :=
  h.elim fun _ hentry => (List.getElem?_eq_some_iff.mp hentry).1

theorem counted_arrives (hopen : ledger.closed = false) :
    (ledger.enter (caller, .arrives)).counted = ledger.counted ++ [⟨caller, none⟩] := by
  simp [enter, hopen]

/-- Who arrives too late is not counted. -/
theorem enter_arrives_of_closed (hclosed : ledger.closed = true) :
    ledger.enter (caller, .arrives) = { ledger with late := ledger.late ++ [⟨caller, none⟩] } := by
  simp [enter, hclosed]

@[simp] theorem closed_arrives : (ledger.enter (caller, .arrives)).closed = ledger.closed := by
  simp only [enter]
  split <;> rfl

theorem late_arrives (hopen : ledger.closed = false) :
    (ledger.enter (caller, .arrives)).late = ledger.late := by
  simp [enter, hopen]

theorem pending_arrives (hopen : ledger.closed = false) :
    (ledger.enter (caller, .arrives)).Pending other wait ↔
      ledger.Pending other wait ∨ other = caller ∧ wait = ledger.counted.length := by
  rw [Pending, Pending, counted_arrives hopen, List.getElem?_append]
  split
  · constructor
    · exact .inl
    · rintro (h | ⟨_, rfl⟩)
      · exact h
      · omega
  · rename_i hge
    rw [List.getElem?_eq_none (Nat.not_lt.mp hge), List.getElem?_singleton]
    constructor
    · intro h
      split at h
      · cases h
        exact .inr ⟨rfl, by omega⟩
      · cases h
    · rintro (h | ⟨rfl, rfl⟩)
      · cases h
      · simp

theorem answered_arrives (hopen : ledger.closed = false) :
    (ledger.enter (caller, .arrives)).Answered wait answer ↔ ledger.Answered wait answer := by
  rw [Answered, Answered, counted_arrives hopen, List.getElem?_append]
  split
  · exact Iff.rfl
  · rename_i hge
    rw [List.getElem?_eq_none (Nat.not_lt.mp hge), List.getElem?_singleton]
    split <;> simp

@[simp] theorem length_returns :
    (ledger.enter (caller, .returns result)).counted.length = ledger.counted.length := by
  simp [enter]

theorem pending_returns :
    (ledger.enter (caller, .returns result)).Pending other wait ↔
      ledger.Pending other wait ∧ other ≠ caller := by
  simp only [Pending, enter, List.getElem?_map]
  cases ledger.counted[wait]? with
  | none => simp
  | some entry =>
    obtain ⟨owner, answer⟩ := entry
    simp only [Option.map_some, Option.some.injEq, LedgerEntry.settled, LedgerEntry.mk.injEq]
    split
    · rename_i h
      obtain ⟨rfl, rfl⟩ := h
      simp
      exact fun h => h.symm
    · rename_i h
      simp only [LedgerEntry.mk.injEq]
      constructor
      · rintro ⟨rfl, rfl⟩
        exact ⟨⟨rfl, rfl⟩, fun heq => h ⟨heq, rfl⟩⟩
      · exact And.left

theorem answered_returns :
    (ledger.enter (caller, .returns result)).Answered wait answer ↔
      ledger.Answered wait answer ∨ ledger.Pending caller wait ∧ answer = result := by
  simp only [Answered, Pending, enter, List.getElem?_map]
  cases ledger.counted[wait]? with
  | none => simp
  | some entry =>
    obtain ⟨owner, before⟩ := entry
    simp only [Option.map_some, Option.some.injEq, LedgerEntry.settled, LedgerEntry.mk.injEq]
    split
    · rename_i h
      obtain ⟨rfl, rfl⟩ := h
      simp
      exact eq_comm
    · rename_i h
      simp only [LedgerEntry.mk.injEq]
      constructor
      · exact .inl
      · rintro (h' | ⟨h', _⟩)
        · exact h'
        · exact absurd h' h

theorem late_returns {entry : LedgerEntry} :
    entry ∈ (ledger.enter (caller, .returns result)).late ↔
      ∃ before ∈ ledger.late, before.settled caller result = entry := by
  simp [enter]

/-- An answer is not changed. -/
theorem settled_of_answer {entry : LedgerEntry} (h : entry.answer = some answer) :
    entry.settled caller result = entry := by
  rw [LedgerEntry.settled, if_neg]
  rintro ⟨_, hnone⟩
  rw [h] at hnone
  cases hnone

/-- The only wait of a caller that has no answer yet. -/
def OnlyPending (ledger : Ledger) (caller wait : Nat) : Prop :=
  ∀ other, ledger.Pending caller other ↔ other = wait

theorem OnlyPending.arrives (hopen : ledger.closed = false) (hnone : ∀ wait, ¬ ledger.Pending caller wait) :
    (ledger.enter (caller, .arrives)).OnlyPending caller ledger.counted.length := by
  intro other
  rw [pending_arrives hopen]
  exact ⟨fun h => (h.resolve_left (hnone other)).2, fun h => .inr ⟨rfl, h⟩⟩

/-- The waits of the others are not touched by an arrival. -/
theorem pending_arrives_of_ne (hopen : ledger.closed = false) (hne : other ≠ caller) :
    (ledger.enter (caller, .arrives)).Pending other wait ↔ ledger.Pending other wait := by
  rw [pending_arrives hopen]
  exact or_iff_left fun h => hne h.1

/-- The waits of the others are not touched by an answer. -/
theorem pending_returns_of_ne (hne : other ≠ caller) :
    (ledger.enter (caller, .returns result)).Pending other wait ↔ ledger.Pending other wait := by
  rw [pending_returns]
  exact and_iff_left hne

/-! ## Who waits -/

/-- What a ledger says of a caller. -/
structure Seat (threads : Nat) (ledger : Ledger) (index : Nat) (caller : Caller) : Prop where
  waiting : ∀ generation, caller.phase.generation? = some generation →
    ∃ wait, ledger.OnlyPending index wait ∧ generation = UInt64.ofNat (wait / threads)
  opening : caller.phase = .opening →
    ∃ wait, ledger.OnlyPending index wait ∧ wait / threads < ledger.counted.length / threads
  outside : caller.phase.generation? = none → caller.phase ≠ .opening → ∀ wait, ¬ ledger.Pending index wait

variable {threads index : Nat} {seated changed : Caller} {later : Ledger}

/-- Seats depend on the waits without an answer only, and on how many there are in all. -/
theorem Seat.mono (h : Seat threads ledger index seated)
    (hpending : ∀ wait, later.Pending index wait ↔ ledger.Pending index wait)
    (hle : ledger.counted.length ≤ later.counted.length) : Seat threads later index seated where
  waiting generation hgeneration := by
    obtain ⟨wait, honly, heq⟩ := h.waiting generation hgeneration
    exact ⟨wait, fun other => (hpending other).trans (honly other), heq⟩
  opening hphase := by
    obtain ⟨wait, honly, hlt⟩ := h.opening hphase
    exact ⟨wait, fun other => (hpending other).trans (honly other),
      Nat.lt_of_lt_of_le hlt (Nat.div_le_div_right hle)⟩
  outside hnone hphase wait := fun hp => h.outside hnone hphase wait ((hpending wait).mp hp)

/-- A caller that neither arrives nor returns. -/
theorem Seat.moved (h : Seat threads ledger index seated)
    (hgeneration : changed.phase.generation? = seated.phase.generation?)
    (hbefore : seated.phase ≠ .opening) (hafter : changed.phase ≠ .opening) :
    Seat threads ledger index changed where
  waiting generation hsome := h.waiting generation (hgeneration.symm.trans hsome)
  opening hphase := absurd hphase hafter
  outside hnone _ := h.outside (hgeneration.symm.trans hnone) hbefore

theorem Seat.notified (h : Seat threads ledger index seated) : Seat threads ledger index seated.notified := by
  by_cases hopening : seated.phase = .opening
  · rw [Caller.notified_eq_self (congrArg Phase.generation? hopening)]
    exact h
  · refine h.moved (Caller.notified_generation? seated) hopening ?_
    obtain ⟨phase, results⟩ := seated
    cases phase with
    | opening => exact absurd rfl hopening
    | _ => exact nofun

/-- A caller without a pending wait is outside. -/
theorem Seat.of_outside (hnone : ∀ wait, ¬ ledger.Pending index wait) (hphase : changed.phase = .idle) :
    Seat threads ledger index changed where
  waiting generation hsome := by
    rw [hphase] at hsome
    cases hsome
  opening hopening := absurd (hphase.symm.trans hopening) nofun
  outside _ _ := hnone

end Ledger

/-! ## The fields of a barrier -/

/-- Whether an answer may be given for a counted wait: the generation of the wait is complete, or it never
will be. -/
def Ledger.Admits (threads : Nat) (ledger : Ledger) (wait : Nat) : WaitResult → Prop
  | .opened => wait / threads < ledger.counted.length / threads
  | .poisoned => ledger.closed = true ∧
    UInt64.ofNat (wait / threads) = UInt64.ofNat (ledger.counted.length / threads)

/-- The fields of a barrier are those that its ledger says, and so are the answers it gave. -/
structure Barrier.Books (threads : Nat) (ledger : Ledger) (barrier : Barrier) : Prop where
  threads_eq : barrier.threads = threads
  arrived_eq : barrier.arrived = ledger.counted.length % threads
  generation_eq : barrier.generation = UInt64.ofNat (ledger.counted.length / threads)
  poisoned_eq : barrier.poisoned = ledger.closed
  answers : ∀ wait result, ledger.Answered wait result → ledger.Admits threads wait result
  late : ∀ entry ∈ ledger.late, entry.answer = some .poisoned

namespace Barrier.Books

variable {threads : Nat} {ledger : Ledger} {barrier barrier' : Barrier} {index : Nat} {result : WaitResult}

/-- What the barrier shows outside its lock is not in the books. -/
theorem congr (h : barrier.Books threads ledger) (hthreads : barrier'.threads = barrier.threads)
    (harrived : barrier'.arrived = barrier.arrived) (hgeneration : barrier'.generation = barrier.generation)
    (hpoisoned : barrier'.poisoned = barrier.poisoned) : barrier'.Books threads ledger :=
  ⟨hthreads.trans h.threads_eq, harrived.trans h.arrived_eq, hgeneration.trans h.generation_eq,
    hpoisoned.trans h.poisoned_eq, h.answers, h.late⟩

/-- One more wait is counted. -/
theorem arrives (h : barrier.Books threads ledger) (hopen : ledger.closed = false)
    (hthreads : barrier'.threads = threads)
    (harrived : barrier'.arrived = (ledger.counted.length + 1) % threads)
    (hgeneration : barrier'.generation = UInt64.ofNat ((ledger.counted.length + 1) / threads))
    (hpoisoned : barrier'.poisoned = barrier.poisoned) :
    barrier'.Books threads (ledger.enter (index, .arrives)) := by
  have hlength : (ledger.enter (index, .arrives)).counted.length = ledger.counted.length + 1 := by
    rw [Ledger.counted_arrives hopen, List.length_append]
    rfl
  refine ⟨hthreads, hlength ▸ harrived, hlength ▸ hgeneration, ?_, fun wait result hwait => ?_, ?_⟩
  · rw [Ledger.closed_arrives]
    exact hpoisoned.trans h.poisoned_eq
  · have hadmits := h.answers wait result ((Ledger.answered_arrives hopen).mp hwait)
    cases result with
    | opened =>
      rw [Ledger.Admits, hlength]
      exact Nat.lt_of_lt_of_le hadmits (Nat.div_le_div_right (Nat.le_succ _))
    | poisoned => exact absurd (hadmits.1.symm.trans hopen) nofun
  · rw [Ledger.late_arrives hopen]
    exact h.late

theorem admits_returns {wait : Nat} {answer : WaitResult} :
    (ledger.enter (index, .returns result)).Admits threads wait answer ↔ ledger.Admits threads wait answer := by
  cases answer with
  | opened => rw [Ledger.Admits, Ledger.Admits, Ledger.length_returns]
  | poisoned =>
    rw [Ledger.Admits, Ledger.Admits, Ledger.length_returns]
    rfl

/-- A wait is answered. -/
theorem returns (h : barrier.Books threads ledger)
    (hadmits : ∀ wait, ledger.Pending index wait → ledger.Admits threads wait result) :
    barrier.Books threads (ledger.enter (index, .returns result)) := by
  refine ⟨h.threads_eq, ?_, ?_, h.poisoned_eq, fun wait answer hwait => ?_, fun entry hentry => ?_⟩
  · rw [Ledger.length_returns]
    exact h.arrived_eq
  · rw [Ledger.length_returns]
    exact h.generation_eq
  · rw [admits_returns]
    rcases Ledger.answered_returns.mp hwait with hold | ⟨hnew, rfl⟩
    · exact h.answers wait answer hold
    · exact hadmits wait hnew
  · obtain ⟨before, hbefore, rfl⟩ := Ledger.late_returns.mp hentry
    rw [Ledger.settled_of_answer (h.late before hbefore)]
    exact h.late before hbefore

/-- A wait comes too late and is turned away at once. -/
theorem turnsAway (h : barrier.Books threads ledger) (hclosed : ledger.closed = true)
    (hnone : ∀ wait, ¬ ledger.Pending index wait) :
    barrier.Books threads ((ledger.enter (index, .arrives)).enter (index, .returns .poisoned)) := by
  rw [Ledger.enter_arrives_of_closed hclosed]
  refine ⟨h.threads_eq, ?_, ?_, h.poisoned_eq, fun wait answer hwait => ?_, fun entry hentry => ?_⟩
  · rw [Ledger.length_returns]
    exact h.arrived_eq
  · rw [Ledger.length_returns]
    exact h.generation_eq
  · rw [admits_returns]
    exact h.answers wait answer ((Ledger.answered_returns.mp hwait).resolve_right fun hp => hnone wait hp.1)
  · obtain ⟨before, hbefore, rfl⟩ := Ledger.late_returns.mp hentry
    rcases List.mem_append.mp hbefore with hold | hnew
    · rw [Ledger.settled_of_answer (h.late before hold)]
      exact h.late before hold
    · obtain rfl := List.mem_singleton.mp hnew
      simp [LedgerEntry.settled]

/-- The barrier is poisoned. -/
theorem closes (h : barrier.Books threads ledger) :
    ({ barrier with poisoned := true } : Barrier).Books threads (ledger.enter (index, .poisons)) := by
  refine ⟨h.threads_eq, h.arrived_eq, h.generation_eq, rfl, fun wait result hwait => ?_, h.late⟩
  have hadmits := h.answers wait result hwait
  cases result with
  | opened => exact hadmits
  | poisoned => exact ⟨rfl, hadmits.2⟩

end Barrier.Books

namespace BarrierRoom

/-- A ledger that agrees with a room. -/
structure Accounted (threads : Nat) (ledger : Ledger) (room : BarrierRoom) : Prop where
  books : room.barrier.Books threads ledger
  seats : ∀ (index : Nat) (caller : Caller), room.callers[index]? = some caller →
    ledger.Seat threads index caller
  present : ∀ index wait, ledger.Pending index wait → index < room.callers.length

namespace Accounted

variable {threads index : Nat} {ledger : Ledger} {room : BarrierRoom} {caller changed : Caller}

/-- A caller goes on that neither arrives nor returns. -/
theorem moves (h : room.Accounted threads ledger) (hcaller : room.callers[index]? = some caller)
    (hgeneration : changed.phase.generation? = caller.phase.generation?)
    (hbefore : caller.phase ≠ .opening) (hafter : changed.phase ≠ .opening) :
    (room.withCaller index changed).Accounted threads ledger where
  books := h.books
  seats := forall_withCaller ((h.seats index caller hcaller).moved hgeneration hbefore hafter)
    fun other sibling _ => h.seats other sibling
  present other wait hp := length_withCaller.symm ▸ h.present other wait hp

/-- A caller returns with an answer that its wait admits. -/
theorem returns (h : room.Accounted threads ledger) {result : WaitResult} (hidle : changed.phase = .idle)
    (hadmits : ∀ wait, ledger.Pending index wait → ledger.Admits threads wait result) :
    (room.withCaller index changed).Accounted threads (ledger.enter (index, .returns result)) where
  books := h.books.returns hadmits
  seats := by
    refine forall_withCaller (.of_outside (fun wait hp => (Ledger.pending_returns.mp hp).2 rfl) hidle) ?_
    intro other sibling hother hsibling
    exact (h.seats other sibling hsibling).mono (fun wait => Ledger.pending_returns_of_ne hother)
      (Nat.le_of_eq Ledger.length_returns.symm)
  present other wait hp := length_withCaller.symm ▸ h.present other wait (Ledger.pending_returns.mp hp).1

/-- A caller arrives too late. -/
theorem turnsAway (h : room.Accounted threads ledger) (hclosed : ledger.closed = true)
    (hnone : ∀ wait, ¬ ledger.Pending index wait) (hidle : changed.phase = .idle) :
    (room.withCaller index changed).Accounted threads
      ((ledger.enter (index, .arrives)).enter (index, .returns .poisoned)) where
  books := h.books.turnsAway hclosed hnone
  seats := by
    rw [Ledger.enter_arrives_of_closed hclosed]
    refine forall_withCaller (.of_outside (fun wait hp => (Ledger.pending_returns.mp hp).2 rfl) hidle) ?_
    intro other sibling hother hsibling
    exact (h.seats other sibling hsibling).mono (fun wait => Ledger.pending_returns_of_ne hother)
      (Nat.le_of_eq Ledger.length_returns.symm)
  present other wait hp := by
    rw [Ledger.enter_arrives_of_closed hclosed] at hp
    exact length_withCaller.symm ▸ h.present other wait (Ledger.pending_returns.mp hp).1

/-- A caller arrives in time: the barrier counts it, and it waits or opens the barrier. -/
theorem arrives (h : room.Accounted threads ledger) (hcaller : room.callers[index]? = some caller)
    (hphase : caller.phase = .arriving) (hopen : ledger.closed = false) {room' : BarrierRoom}
    (hcallers : room'.callers = room.callers)
    (hbooks : room'.barrier.Books threads (ledger.enter (index, .arrives)))
    (hseat : (ledger.enter (index, .arrives)).OnlyPending index ledger.counted.length →
      (ledger.enter (index, .arrives)).Seat threads index changed) :
    (room'.withCaller index changed).Accounted threads (ledger.enter (index, .arrives)) where
  books := hbooks
  seats := by
    have hnone : ∀ wait, ¬ ledger.Pending index wait := by
      refine (h.seats index caller hcaller).outside ?_ ?_ <;> (rw [hphase]; first | rfl | exact nofun)
    refine forall_withCaller (hseat (.arrives hopen hnone)) fun other sibling hother hsibling => ?_
    refine (h.seats other sibling (hcallers ▸ hsibling)).mono
      (fun wait => Ledger.pending_arrives_of_ne hopen hother) ?_
    rw [Ledger.counted_arrives hopen, List.length_append]
    exact Nat.le_add_right _ _
  present other wait hp := by
    rw [withCaller, List.length_set, hcallers]
    rcases (Ledger.pending_arrives hopen).mp hp with hold | ⟨rfl, _⟩
    · exact h.present other wait hold
    · exact (List.getElem?_eq_some_iff.mp hcaller).1

/-- The others are woken, and what the barrier shows changes. -/
theorem notifies (h : room.Accounted threads ledger) {barrier : Barrier}
    (hbooks : barrier.Books threads ledger) {holder : Option Nat} :
    ({ room with barrier := barrier, holder := holder }.notifyAll).Accounted threads ledger where
  books := hbooks
  seats := by
    intro other sibling hsibling
    obtain ⟨before, hbefore, rfl⟩ := exists_of_notifyAll hsibling
    exact (h.seats other before hbefore).notified
  present other wait hp := (List.length_map Caller.notified).symm ▸ h.present other wait hp

/-- The barrier is shown to be open. -/
theorem shown (h : room.Accounted threads ledger) : room.shown.Accounted threads ledger := by
  have hbooks : ({ room.barrier with shownGeneration := room.barrier.generation } : Barrier).Books threads
      ledger := h.books.congr rfl rfl rfl rfl
  exact h.notifies hbooks

/-- The barrier is shown to be poisoned. -/
theorem exposed (h : room.Accounted threads ledger) : room.exposed.Accounted threads ledger := by
  have hbooks : ({ room.barrier with shownPoisoned := true } : Barrier).Books threads ledger :=
    h.books.congr rfl rfl rfl rfl
  exact h.notifies hbooks

/-- The barrier opens when a multiple of its lanes has arrived. -/
theorem opens (h : room.Accounted threads ledger) (hthreads : 0 < threads)
    (hcaller : room.callers[index]? = some caller) (hphase : caller.phase = .arriving)
    (hpoisoned : room.barrier.poisoned = false) (hlast : room.barrier.arrived + 1 = room.barrier.threads) :
    ((room.opening index).withCaller index (caller.moveTo .opening)).Accounted threads
      (ledger.enter (index, .arrives)) := by
  have hopen : ledger.closed = false := h.books.poisoned_eq.symm.trans hpoisoned
  have hsucc : ledger.counted.length + 1 = threads * (ledger.counted.length / threads + 1) := by
    have := Nat.div_add_mod ledger.counted.length threads
    rw [h.books.arrived_eq, h.books.threads_eq] at hlast
    rw [Nat.mul_succ]
    omega
  have hdiv : (ledger.counted.length + 1) / threads = ledger.counted.length / threads + 1 := by
    rw [hsucc, Nat.mul_div_cancel_left _ hthreads]
  refine h.arrives hcaller hphase hopen rfl (h.books.arrives hopen h.books.threads_eq ?_ ?_ rfl) fun honly => ?_
  · rw [hsucc, Nat.mul_mod_right]
    rfl
  · rw [hdiv, UInt64.ofNat_add]
    exact congrArg (· + 1) h.books.generation_eq
  · refine ⟨nofun, fun _ => ⟨ledger.counted.length, honly, ?_⟩, fun _ hne => absurd rfl hne⟩
    rw [Ledger.counted_arrives hopen, List.length_append, List.length_singleton, hdiv]
    exact Nat.lt_succ_self _

/-- Another caller joins a generation. -/
theorem joins (h : room.Accounted threads ledger) (hthreads : 0 < threads)
    (hcaller : room.callers[index]? = some caller) (hphase : caller.phase = .arriving)
    (hpoisoned : room.barrier.poisoned = false) (hlast : room.barrier.arrived + 1 ≠ room.barrier.threads) :
    (room.joined.withCaller index (caller.moveTo (.spinning room.barrier.generation 0))).Accounted threads
      (ledger.enter (index, .arrives)) := by
  have hopen : ledger.closed = false := h.books.poisoned_eq.symm.trans hpoisoned
  have hlt : ledger.counted.length % threads + 1 < threads := by
    rw [h.books.arrived_eq, h.books.threads_eq] at hlast
    exact Nat.lt_of_le_of_ne (Nat.mod_lt _ hthreads) hlast
  have hsucc : ledger.counted.length + 1 =
      threads * (ledger.counted.length / threads) + (ledger.counted.length % threads + 1) := by
    rw [← Nat.add_assoc, Nat.div_add_mod]
  refine h.arrives hcaller hphase hopen rfl (h.books.arrives hopen h.books.threads_eq ?_ ?_ rfl) fun honly => ?_
  · rw [hsucc, Nat.mul_add_mod, Nat.mod_eq_of_lt hlt]
    exact congrArg (· + 1) h.books.arrived_eq
  · rw [hsucc, Nat.mul_add_div hthreads, Nat.div_eq_of_lt hlt]
    exact h.books.generation_eq
  · refine ⟨fun generation hgeneration => ?_, nofun, nofun⟩
    obtain rfl := Option.some.inj hgeneration
    exact ⟨ledger.counted.length, honly, h.books.generation_eq⟩

/-- Who sees another generation than its own may return. -/
theorem admits_of_shown_ne (h : room.Accounted threads ledger) (hlocked : room.Locked)
    (hcaller : room.callers[index]? = some caller) {generation : UInt64}
    (hgeneration : caller.phase.generation? = some generation)
    (hne : room.barrier.shownGeneration ≠ generation) {wait : Nat} (hwait : ledger.Pending index wait) :
    ledger.Admits threads wait .opened := by
  obtain ⟨only, honly, rfl⟩ := (h.seats index caller hcaller).waiting generation hgeneration
  obtain rfl := (honly wait).mp hwait
  refine Nat.lt_of_le_of_ne (Nat.div_le_div_right (Nat.le_of_lt hwait.lt)) fun heq => ?_
  -- the caller would be in the current generation, of which nobody has arrived while another one is shown
  have hshown : room.barrier.shownGeneration ≠ room.barrier.generation := by
    rw [h.books.generation_eq, ← heq]
    exact hne
  have hmod : ledger.counted.length % threads = 0 := h.books.arrived_eq.symm.trans (hlocked.arrived_eq hshown)
  have hall := Nat.div_add_mod ledger.counted.length threads
  have hle := Nat.mul_div_le wait threads
  have := hwait.lt
  rw [heq] at hle
  omega

/-- Who sees under the lock that its generation stays incomplete may give up. -/
theorem admits_of_poisoned (h : room.Accounted threads ledger)
    (hcaller : room.callers[index]? = some caller) {generation : UInt64}
    (hgeneration : caller.phase.generation? = some generation)
    (hsame : room.barrier.generation = generation) (hpoisoned : room.barrier.poisoned = true) {wait : Nat}
    (hwait : ledger.Pending index wait) : ledger.Admits threads wait .poisoned := by
  obtain ⟨only, honly, heq⟩ := (h.seats index caller hcaller).waiting generation hgeneration
  obtain rfl := (honly wait).mp hwait
  exact ⟨h.books.poisoned_eq.symm.trans hpoisoned, heq.symm.trans (hsame.symm.trans h.books.generation_eq)⟩

/-- The barrier is poisoned. -/
theorem closes (h : room.Accounted threads ledger) :
    (room.closing index).Accounted threads (ledger.enter (index, .poisons)) where
  books := h.books.closes
  seats other sibling hsibling :=
    (h.seats other sibling hsibling).mono (fun _ => Iff.rfl) (Nat.le_refl _)
  present := h.present

/-- **A turn keeps a ledger in agreement with the room**, with what was seen of the turn entered. -/
theorem turn (h : room.Accounted threads ledger) (hlocked : room.Locked) (hthreads : 0 < threads)
    (turn : Turn) :
    (room.turn turn).Accounted threads
      (((room.deeds turn).map fun deed => (turn.caller, deed)).foldl Ledger.enter ledger) := by
  cases hcaller : room.callers[turn.caller]? with
  | none =>
    have hsame := turn_of_no_caller hcaller
    rw [deeds_of_turn_eq hsame, hsame]
    exact h
  | some caller =>
    obtain ⟨room', hroom'⟩ : ∃ room', room' = room.turn turn := ⟨_, rfl⟩
    obtain ⟨deeds, hdeeds⟩ : ∃ deeds, deeds = room.deeds turn := ⟨_, rfl⟩
    have hmove := move_turn turn hcaller
    rw [← hroom', ← hdeeds] at hmove
    rw [← hroom', ← hdeeds]
    have hseat := h.seats turn.caller caller hcaller
    cases hmove with
    | stays => exact h
    | begins hidle hphase =>
      refine h.moves hcaller ?_ (hidle ▸ nofun) ?_ <;> rcases hphase with rfl | ⟨rfl, _⟩
      · exact (congrArg Phase.generation? hidle).symm
      · exact (congrArg Phase.generation? hidle).symm
      · exact nofun
      · exact nofun
    | turnedAway hphase _ hp =>
      refine h.turnsAway (h.books.poisoned_eq.symm.trans hp) (hseat.outside ?_ ?_) rfl
      · rw [hphase]
        rfl
      · rw [hphase]
        exact nofun
    | opens hphase _ hp hlast => exact h.opens hthreads hcaller hphase hp hlast
    | joins hphase _ hp hlast => exact h.joins hthreads hcaller hphase hp hlast
    | shows hphase =>
      refine h.shown.returns (Caller.returned_phase caller .opened) fun wait hwait => ?_
      obtain ⟨only, honly, hlt⟩ := hseat.opening hphase
      exact (honly wait).mp hwait ▸ hlt
    | sees hphase hshown =>
      exact h.returns rfl fun wait hwait =>
        h.admits_of_shown_ne hlocked hcaller (congrArg Phase.generation? hphase) hshown hwait
    | finds hphase hfree hover =>
      exact h.returns rfl fun wait hwait => h.admits_of_shown_ne hlocked hcaller
        (congrArg Phase.generation? hphase) (hlocked.generation_eq hfree ▸ hover) hwait
    | fails hphase _ hsame hp =>
      exact h.returns rfl fun wait hwait =>
        h.admits_of_poisoned hcaller (congrArg Phase.generation? hphase) hsame hp hwait
    | parks hphase => exact h.moves hcaller (congrArg Phase.generation? hphase).symm (hphase ▸ nofun) nofun
    | looks hgeneration hphase =>
      refine h.moves hcaller (hphase.trans hgeneration.symm) ?_ ?_
      · intro heq
        rw [heq] at hgeneration
        cases hgeneration
      · rintro rfl
        cases hphase
    | closes hphase =>
      exact h.closes.moves hcaller (congrArg Phase.generation? hphase).symm
        (hphase ▸ nofun) nofun
    | exposes hphase =>
      exact h.exposed.moves (getElem?_notifyAll hcaller (congrArg Phase.generation? hphase))
        (congrArg Phase.generation? hphase).symm (hphase ▸ nofun) nofun

end Accounted

end BarrierRoom

end BlockMachine
