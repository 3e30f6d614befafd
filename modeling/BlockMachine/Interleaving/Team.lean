import BlockMachine.Barrier.Ledger
import BlockMachine.Interleaving.Log

/-!
# Lanes that are threads

A `Crew` takes it for granted that its lanes begin together, and that a barrier opens for all of them at once.  A
`Team` does not: each of its lanes is a thread, which the host starts, and these threads meet at a `Barrier`.  Each
turn is one atomic step of one thread, so a list of turns is an interleaving, down to the spinning, the lock and the
wake-ups that nobody asked for.

* The host starts the lanes by number.  If it cannot start one, it poisons the barrier.
* A lane waits at the barrier before it begins, so none begins that is not part of a whole block.
* A lane that panics poisons the barrier, and then it tells its panic; the first panic that is told stays.
* A lane that is told at a barrier that this is poisoned unwinds with the release signal.

`Team.Mirrors` says in which way a crew does what a team does.
-/

set_option autoImplicit false

namespace BlockMachine

/-- Where a lane stands that is a thread. -/
inductive Thread (σ α β : Type) where
  /-- The host has not started it. -/
  | awaited (program : Lane σ α β)
  /-- In the wait with which it begins. -/
  | mustering (program : Lane σ α β)
  /-- It has been told there that the block is not complete. -/
  | dismissed
  | running (program : Lane σ α β)
  /-- In the wait of a barrier, with what comes after it. -/
  | waiting (next : Lane σ α β)
  /-- It has panicked and poisons the barrier. -/
  | poisoning (panic : Panic)
  /-- It has poisoned the barrier and is about to tell its panic. -/
  | reporting (panic : Panic)
  | finished (result : β)
  | unwound (panic : Panic)

namespace Thread

variable {σ α β : Type}

/-- Whether the thread has come to its end. -/
def isOver : Thread σ α β → Bool
  | dismissed | finished _ | unwound _ => true
  | _ => false

/-- Whether the thread is still to be started. -/
def isAwaited : Thread σ α β → Bool
  | awaited _ => true
  | _ => false

/-- The panic of a thread that has panicked. -/
def panic? : Thread σ α β → Option Panic
  | poisoning panic | reporting panic | unwound panic => some panic
  | _ => none

end Thread

namespace BarrierRoom

/-- Whether a caller is in no call. -/
def isIdle (room : BarrierRoom) (index : Nat) : Bool :=
  match room.callers[index]? with
  | some ⟨.idle, _⟩ => true
  | _ => false

/-- The answer of the latest wait of a caller that is in no call. -/
def answer? (room : BarrierRoom) (index : Nat) : Option WaitResult :=
  match room.callers[index]? with
  | some ⟨.idle, result :: _⟩ => some result
  | _ => none

end BarrierRoom

/-- A block whose lanes are threads. -/
structure Team (σ α β : Type) where
  slots : Array σ
  threads : List (Thread σ α β)
  /-- The barrier and its callers: the lanes by number, and then the host. -/
  room : BarrierRoom
  /-- The number of lanes that the host has started. -/
  started : Nat := 0
  /-- Why the host could not start the next one. -/
  refusal : Option String := none
  /-- The first panic that has been told. -/
  fault : Option Panic := none

namespace Team

variable {σ α β : Type}

/-- What can happen next in a team. -/
inductive Turn where
  /-- The host takes its next step. -/
  | hosts
  /-- A lane takes its next step. -/
  | steps (lane : Nat)
  /-- A parked lane wakes up although nobody asked for it. -/
  | wakes (lane : Nat)
  deriving DecidableEq, Repr

/-- A block about to begin. -/
def start (slots : Array σ) (lanes : List (Lane σ α β)) : Team σ α β where
  slots := slots
  threads := lanes.map .awaited
  room := Drill.gather { threads := lanes.length } (lanes.length + 1)

/-- The number under which the host calls the barrier. -/
def host (team : Team σ α β) : Nat := team.threads.length

/-- The team after a lane has moved. -/
def moved (team : Team σ α β) (lane : Nat) (thread : Thread σ α β) : Team σ α β :=
  { team with threads := team.threads.set lane thread }

/-- The team after a lane has begun a call of the barrier. -/
def calling (team : Team σ α β) (lane : Nat) (thread : Thread σ α β) (phase : Phase) : Team σ α β :=
  { team with threads := team.threads.set lane thread, room := team.room.call lane phase }

/-- The team after a lane has panicked. -/
def panicked (team : Team σ α β) (lane : Nat) (panic : Panic) : Team σ α β :=
  team.calling lane (.poisoning panic) .poisoning

/-- The team after a lane has told its panic. -/
def told (team : Team σ α β) (lane : Nat) (panic : Panic) : Team σ α β :=
  { team with
    threads := team.threads.set lane (.unwound panic)
    fault := team.fault <|> (if panic.isRelease then none else some panic) }

/-- The next step of the host: it starts a lane, or poisons the barrier. -/
def hosted (spawner : Spawner) (block : Nat) (team : Team σ α β) : Team σ α β :=
  if team.refusal.isSome then { team with room := team.room.step team.host }
  else
    match team.threads[team.started]? with
    | some (.awaited program) =>
      match spawner.refuses block team.started with
      | none =>
        { team.calling team.started (.mustering program) .arriving with started := team.started + 1 }
      | some cause => { team with room := team.room.call team.host .poisoning, refusal := some cause }
    | _ => team

/-- The team after a lane has taken a step in a call of the barrier. -/
def stepped (team : Team σ α β) (lane : Nat) : Team σ α β := { team with room := team.room.step lane }

/-- The team after a lane has taken a step in a wait that it may now be back from. -/
def back (team : Team σ α β) (lane : Nat) (opened : Thread σ α β) (poisoned : Team σ α β → Team σ α β) :
    Team σ α β :=
  match (team.stepped lane).room.answer? lane with
  | some .opened => (team.stepped lane).moved lane opened
  | some .poisoned => poisoned (team.stepped lane)
  | none => team.stepped lane

/-- The team and the store after a lane has had an answer to a request. -/
def answered (team : Team σ α β) (lane : Nat) {request : Request σ α}
    (next : request.Answer → Lane σ α β) :
    Except Panic request.Answer × Machine σ α → Team σ α β × Store α
  | (.ok answer, machine) =>
    ({ team with slots := machine.slots }.moved lane (.running (next answer)), machine.store)
  | (.error panic, machine) =>
    ({ team with slots := machine.slots }.panicked lane panic, machine.store)

/-- The next step of a lane.  A lane that cannot take one stays where it is. -/
def advanced (callbacks : Callbacks σ α) (team : Team σ α β) (lane : Nat) (store : Store α) :
    Team σ α β × Store α :=
  match team.threads[lane]? with
  | some (.mustering program) =>
    (team.back lane (.running program) fun team => team.moved lane .dismissed, store)
  | some (.running (.done result)) => (team.moved lane (.finished result), store)
  | some (.running (.fault panic)) => (team.panicked lane panic, store)
  | some (.running (.barrier next)) => (team.calling lane (.waiting next) .arriving, store)
  | some (.running (.ask request next)) =>
    team.answered lane next (Machine.perform callbacks request ⟨team.slots, store⟩)
  | some (.waiting next) =>
    (team.back lane (.running next) fun team => team.panicked lane (.raised .barrierPoisoned), store)
  | some (.poisoning panic) =>
    if (team.stepped lane).room.isIdle lane then ((team.stepped lane).moved lane (.reporting panic), store)
    else (team.stepped lane, store)
  | some (.reporting panic) => (team.told lane panic, store)
  | _ => (team, store)

/-- One turn. -/
def turn (callbacks : Callbacks σ α) (spawner : Spawner) (block : Nat) (team : Team σ α β) (store : Store α) :
    Turn → Team σ α β × Store α
  | .hosts => (team.hosted spawner block, store)
  | .steps lane => team.advanced callbacks lane store
  | .wakes lane => ({ team with room := team.room.wake lane }, store)

/-- What a lane does in its next step; nothing that others could see while it is in a call, but for its arrival. -/
def laneDeed? (team : Team σ α β) (lane : Nat) : Option (Deed σ α) :=
  match team.threads[lane]? with
  | some (.running (.done _)) => some .ends
  | some (.running (.fault _)) => some .ends
  | some (.running (.ask request _)) => some (.asks request)
  | some (.waiting _) => if CallerDeed.arrives ∈ team.room.deeds (.steps lane) then some .arrives else none
  | _ => none

/-- What a lane does in a turn, and which one. -/
def deed? (team : Team σ α β) : Turn → Option (Nat × Deed σ α)
  | .steps lane => (team.laneDeed? lane).map fun deed => (lane, deed)
  | .hosts | .wakes _ => none

/-- The team and the store after some turns. -/
def run (callbacks : Callbacks σ α) (spawner : Spawner) (block : Nat) (team : Team σ α β) (store : Store α)
    (turns : List Turn) : Team σ α β × Store α :=
  turns.foldl (fun (state : Team σ α β × Store α) turn =>
    state.1.turn callbacks spawner block state.2 turn) (team, store)

/-- Whether the threads of the block have come to their ends: all of them, or all that could be started. -/
def isOver (team : Team σ α β) : Bool :=
  if team.refusal.isSome then
    team.room.isIdle team.host && team.threads.all fun thread => thread.isOver || thread.isAwaited
  else team.threads.all Thread.isOver

/-- What the block answers if not all is well. -/
def failure? (block : Nat) (team : Team σ α β) : Option LibraryError :=
  match team.refusal, team.fault with
  | some cause, _ => some (.launchFailed block cause)
  | none, some panic => some (.kernelFault block panic.report)
  | none, none => none

end Team

end BlockMachine
