import BlockMachine.Proofs.Interleaving.Turn

/-!
# Panics in a block

Between two of its barriers a block holds together: no lane is more than one barrier ahead of another
one.  A panic of one lane keeps the next barrier shut, so what the other lanes still do lies before it.

* `Deed.arrivals` — the barriers at which a lane has arrived.
* `Crew.Raises` — a lane has unwound with a panic of its own, and not because a barrier let it go.
* `Crew.Abreast` — the lanes of a block between two of its barriers, and `Crew.Abreast.turn` says that
  every turn keeps them together.
* `Crew.Abreast.outcome` — how the lanes of a block with a panic come to their end.
-/

set_option autoImplicit false

namespace BlockMachine

open History

variable {σ α β : Type}

/-! ## Deeds of a lane -/

namespace Deed

/-- Whether a deed is the arrival at a barrier. -/
def isArrival : Deed σ α → Bool
  | arrives => true
  | _ => false

/-- The number of barriers at which a lane has arrived. -/
def arrivals (deeds : List (Deed σ α)) : Nat := deeds.countP isArrival

theorem arrivals_concat (deeds : List (Deed σ α)) (deed : Deed σ α) :
    arrivals (deeds ++ [deed]) = arrivals deeds + if deed.isArrival then 1 else 0 := by
  rw [arrivals, arrivals, List.countP_append, List.countP_singleton]

end Deed

/-! ## Lanes between two barriers -/

/-- Where a lane stands and what it has done, while the barriers before `segment` are open and the next
one is not. -/
inductive Station.Stands (segment : Nat) : Station σ α β → List (Deed σ α) → Prop
  | running (program : Lane σ α β) {deeds : List (Deed σ α)} (h : Deed.arrivals deeds = segment) :
    Stands segment (.running program) deeds
  | arrived (next : Lane σ α β) {early : List (Deed σ α)} (h : Deed.arrivals early = segment) :
    Stands segment (.arrived next) (early ++ [.arrives])
  | finished (result : β) {early : List (Deed σ α)} (h : Deed.arrivals early = segment) :
    Stands segment (.finished result) (early ++ [.ends])
  /-- With a panic of its own. -/
  | panicked (panic : Panic) {early : List (Deed σ α)} {deed : Deed σ α}
    (hdeed : deed.isArrival = false) (h : Deed.arrivals early = segment) :
    Stands segment (.unwound panic) (early ++ [deed])
  /-- At a barrier that will not open. -/
  | released {early : List (Deed σ α)} (h : Deed.arrivals early = segment) :
    Stands segment (.unwound (.raised .barrierPoisoned)) (early ++ [.arrives])

theorem Station.Stands.arrivals_of_running {segment : Nat} {program : Lane σ α β}
    {deeds : List (Deed σ α)} (h : (Station.running program).Stands segment deeds) :
    Deed.arrivals deeds = segment := by
  cases h with
  | running _ h => exact h

theorem Station.Stands.arrivals_of_arrived {segment : Nat} {next : Lane σ α β}
    {deeds : List (Deed σ α)} (h : (Station.arrived next).Stands segment deeds) :
    Deed.arrivals deeds = segment + 1 := by
  cases h with
  | arrived _ h =>
    rw [Deed.arrivals_concat, h]
    rfl

theorem Station.Stands.arrivals_of_finished {segment : Nat} {result : β} {deeds : List (Deed σ α)}
    (h : (Station.finished result).Stands segment deeds) : Deed.arrivals deeds = segment := by
  cases h with
  | finished _ h =>
    rw [Deed.arrivals_concat, h]
    rfl

/-- A barrier that will not open lets a lane go. -/
theorem Station.Stands.release {segment : Nat} {next : Lane σ α β} {deeds : List (Deed σ α)}
    (h : (Station.arrived next).Stands segment deeds) :
    (Station.unwound (.raised .barrierPoisoned) : Station σ α β).Stands segment deeds := by
  cases h with
  | arrived _ h => exact .released h

namespace Crew

/-- A lane has unwound with a panic of its own: what it did last was no arrival at a barrier. -/
def Raises (crew : Crew σ α β) (log : List (Nat × Deed σ α)) (lane : Nat) (panic : Panic) : Prop :=
  crew.stations[lane]? = some (.unwound panic) ∧
    ∃ early deed, own lane log = early ++ [deed] ∧ deed.isArrival = false

/-- The lanes of a block between two of its barriers. -/
structure Abreast (lanes segment : Nat) (crew : Crew σ α β) (log : List (Nat × Deed σ α)) : Prop where
  length : crew.stations.length = lanes
  stands : ∀ (lane : Nat) (station : Station σ α β), crew.stations[lane]? = some station →
    station.Stands segment (own lane log)
  /-- The barrier ahead is shut. -/
  shut : 0 < lanes → crew.stations.all Station.isArrived = false
  calm : crew.poisoned = false → ∀ (lane : Nat) (panic : Panic), crew.stations[lane]? ≠ some (.unwound panic)
  /-- Whoever unwinds first does so with a panic of its own. -/
  source : crew.poisoned = true → ∃ lane panic, crew.Raises log lane panic
  fault : ∀ panic : Panic, crew.fault = some panic →
    panic.isRelease = false ∧ ∃ lane : Nat, crew.stations[lane]? = some (.unwound panic)
  faulted : ∀ (lane : Nat) (panic : Panic), crew.stations[lane]? = some (.unwound panic) → panic.isRelease = false →
    crew.fault.isSome

/-- A block about to begin. -/
theorem abreast_start (slots : Array σ) (programs : List (Lane σ α β)) :
    Abreast programs.length 0 (Crew.start slots programs) [] := by
  have hstation : ∀ (lane : Nat) (station : Station σ α β),
      (Crew.start slots programs).stations[lane]? = some station →
      ∃ program, station = .running program := by
    intro lane station hs
    obtain ⟨program, _, rfl⟩ := List.mem_map.mp (List.mem_of_getElem? hs)
    exact ⟨program, rfl⟩
  refine ⟨List.length_map .., fun lane station hs => ?_, fun hpos => ?_, fun _ lane panic hs => ?_,
    nofun, nofun, fun lane panic hs _ => ?_⟩
  · obtain ⟨program, rfl⟩ := hstation lane station hs
    exact .running program rfl
  · rw [List.all_eq_false]
    obtain ⟨program, hprogram⟩ := List.exists_mem_of_length_pos hpos
    exact ⟨.running program, List.mem_map_of_mem hprogram, Bool.false_ne_true⟩
  · obtain ⟨program, h⟩ := hstation lane _ hs
    cases h
  · obtain ⟨program, h⟩ := hstation lane _ hs
    cases h

variable {crew crew' : Crew σ α β} {lanes segment lane : Nat} {log : List (Nat × Deed σ α)}
  {station : Station σ α β} {deed : Option (Deed σ α)}

/-- What a lane has done is what it had done, unless the turn was its own. -/
theorem own_turn (other lane : Nat) (log : List (Nat × Deed σ α)) (deed : Option (Deed σ α)) :
    own other (log ++ deed.toList.map fun deed => (lane, deed)) =
      if lane = other then own other log ++ deed.toList else own other log := by
  rw [own_append, own_map_pair]
  by_cases h : lane = other
  · rw [if_pos h, if_pos h]
  · rw [if_neg h, if_neg h, List.append_nil]

/-- Where the lanes stand when one of them has moved. -/
theorem Abreast.stands_set (h : Abreast lanes segment crew log) (hlane : lane < lanes)
    (hstands : station.Stands segment (own lane log ++ deed.toList)) (other : Nat)
    {station' : Station σ α β} (hs : (crew.stations.set lane station)[other]? = some station') :
    station'.Stands segment (own other (log ++ deed.toList.map fun deed => (lane, deed))) := by
  rw [own_turn]
  by_cases he : lane = other
  · subst he
    rw [List.getElem?_set_self (by rw [h.length]; exact hlane)] at hs
    obtain rfl := Option.some.inj hs
    rw [if_pos rfl]
    exact hstands
  · rw [List.getElem?_set_ne he] at hs
    rw [if_neg he]
    exact h.stands other station' hs

/-- A lane that has unwound with a panic of its own stays so while others move. -/
theorem Raises.set {other : Nat} {panic : Panic} (h : crew.Raises log other panic) (hne : lane ≠ other)
    (hstations : crew'.stations = crew.stations.set lane station) :
    crew'.Raises (log ++ deed.toList.map fun deed => (lane, deed)) other panic := by
  unfold Raises
  rw [hstations, List.getElem?_set_ne hne, own_turn, if_neg hne]
  exact h

/-- A lane moves on without a panic. -/
theorem Abreast.moved (h : Abreast lanes segment crew log) {now : Station σ α β}
    (hnow : crew.stations[lane]? = some now) (hactive : now.isOver = false)
    (hstations : crew'.stations = crew.stations.set lane station)
    (hpoisoned : crew'.poisoned = crew.poisoned) (hfault : crew'.fault = crew.fault)
    (hstands : station.Stands segment (own lane log ++ deed.toList))
    (hwell : ∀ panic, station ≠ .unwound panic)
    (hshut : crew'.stations.all Station.isArrived = false) :
    Abreast lanes segment crew' (log ++ deed.toList.map fun deed => (lane, deed)) := by
  have hlength := (List.getElem?_eq_some_iff.mp hnow).1
  have hlane : lane < lanes := h.length ▸ hlength
  -- who has unwound now had unwound before
  have hold : ∀ (other : Nat) (panic : Panic), crew'.stations[other]? = some (.unwound panic) ↔
      crew.stations[other]? = some (.unwound panic) := by
    intro other panic
    rw [hstations]
    by_cases he : lane = other
    · subst he
      rw [List.getElem?_set_self hlength, hnow]
      constructor
      · intro hs
        exact absurd (Option.some.inj hs) (hwell panic)
      · intro hs
        rw [Option.some.inj hs] at hactive
        cases hactive
    · rw [List.getElem?_set_ne he]
  refine ⟨by rw [hstations, List.length_set, h.length], fun other station' hs => ?_, fun _ => hshut,
    fun hp other panic hs => ?_, fun hp => ?_, fun panic hf => ?_, fun other panic hs hrelease => ?_⟩
  · exact h.stands_set hlane hstands other (hstations ▸ hs)
  · exact h.calm (hpoisoned ▸ hp) other panic ((hold other panic).mp hs)
  · obtain ⟨other, panic, hraises⟩ := h.source (hpoisoned ▸ hp)
    refine ⟨other, panic, hraises.set ?_ hstations⟩
    rintro rfl
    rw [Option.some.inj (hnow.symm.trans hraises.1)] at hactive
    cases hactive
  · obtain ⟨hrelease, other, hs⟩ := h.fault panic (hfault ▸ hf)
    exact ⟨hrelease, other, (hold other panic).mpr hs⟩
  · rw [hfault]
    exact h.faulted other panic ((hold other panic).mp hs) hrelease

/-- A lane unwinds. -/
theorem Abreast.unwinds (h : Abreast lanes segment crew log) {now : Station σ α β} {panic : Panic}
    (hnow : crew.stations[lane]? = some now) (hactive : now.isOver = false)
    (hstations : crew'.stations = crew.stations.set lane (.unwound panic))
    (hpoisoned : crew'.poisoned = true)
    (hfault : crew'.fault = (crew.fault <|> if panic.isRelease then none else some panic))
    (hstands : (Station.unwound panic : Station σ α β).Stands segment (own lane log ++ deed.toList))
    (hsource : crew.poisoned = false → ∃ last, deed = some last ∧ last.isArrival = false) :
    Abreast lanes segment crew' (log ++ deed.toList.map fun deed => (lane, deed)) := by
  have hlength := (List.getElem?_eq_some_iff.mp hnow).1
  have hlane : lane < lanes := h.length ▸ hlength
  have hself : crew'.stations[lane]? = some (.unwound panic) := by
    rw [hstations, List.getElem?_set_self hlength]
  -- nobody who had unwound has come back
  have hactive' : ∀ panic, crew.stations[lane]? ≠ some (.unwound panic) := by
    rintro panic hs
    rw [Option.some.inj (hnow.symm.trans hs)] at hactive
    cases hactive
  have hold : ∀ (other : Nat) (panic : Panic), crew.stations[other]? = some (.unwound panic) →
      crew'.stations[other]? = some (.unwound panic) := by
    intro other panic hs
    have hne : lane ≠ other := by
      rintro rfl
      exact hactive' panic hs
    rw [hstations, List.getElem?_set_ne hne, hs]
  refine ⟨by rw [hstations, List.length_set, h.length], fun other station' hs => ?_, fun _ => ?_,
    fun hp => ?_, fun _ => ?_, fun first hf => ?_, fun other panic' hs hrelease => ?_⟩
  · exact h.stands_set hlane hstands other (hstations ▸ hs)
  · rw [List.all_eq_false]
    exact ⟨_, List.mem_of_getElem? hself, Bool.false_ne_true⟩
  · rw [hpoisoned] at hp
    cases hp
  · cases hp : crew.poisoned with
    | false =>
      obtain ⟨last, rfl, hlast⟩ := hsource hp
      refine ⟨lane, panic, hself, own lane log, last, ?_, hlast⟩
      rw [own_turn, if_pos rfl]
      rfl
    | true =>
      obtain ⟨other, panic', hraises⟩ := h.source hp
      refine ⟨other, panic', hraises.set ?_ hstations⟩
      rintro rfl
      exact hactive' _ hraises.1
  · rw [hfault] at hf
    cases hcrew : crew.fault with
    | some before =>
      rw [hcrew] at hf
      obtain rfl : before = first := Option.some.inj hf
      obtain ⟨hrelease, other, hs⟩ := h.fault before hcrew
      exact ⟨hrelease, other, hold other before hs⟩
    | none =>
      rw [hcrew] at hf
      by_cases hrelease : panic.isRelease = true
      · rw [if_pos hrelease] at hf
        cases hf
      · rw [if_neg hrelease] at hf
        obtain rfl : panic = first := Option.some.inj hf
        exact ⟨Bool.eq_false_iff.mpr hrelease, lane, hself⟩
  · rw [hfault]
    cases hcrew : crew.fault with
    | some before => rfl
    | none =>
      by_cases he : lane = other
      · subst he
        obtain rfl := Station.unwound.inj (Option.some.inj (hself.symm.trans hs))
        rw [hrelease]
        rfl
      · rw [hstations, List.getElem?_set_ne he] at hs
        have hsome := h.faulted other panic' hs hrelease
        rw [hcrew] at hsome
        cases hsome

/-- The barrier opens: all lanes had arrived at it. -/
theorem Abreast.opens (h : Abreast lanes segment crew log) {next : Lane σ α β}
    (hnow : crew.stations[lane]? = some (.running (.barrier next))) (hp : crew.poisoned = false)
    (hall : (crew.stations.set lane (.arrived next)).all Station.isArrived = true) :
    Abreast lanes (segment + 1)
      { crew with stations := (crew.stations.set lane (.arrived next)).map Station.passed }
      (log ++ [(lane, .arrives)]) := by
  have hlength := (List.getElem?_eq_some_iff.mp hnow).1
  have hlane : lane < lanes := h.length ▸ hlength
  have harrived : (Station.arrived next : Station σ α β).Stands segment
      (own lane log ++ (some Deed.arrives).toList) := by
    have hstands := h.stands lane _ hnow
    cases hstands with
    | running _ hcount => exact .arrived next hcount
  have hrunning : ∀ (other : Nat) (station : Station σ α β),
      ((crew.stations.set lane (.arrived next)).map Station.passed)[other]? = some station →
        ∃ rest, station = .running rest ∧
          Deed.arrivals (own other (log ++ [(lane, .arrives)])) = segment + 1 := by
    intro other station hs
    rw [List.getElem?_map] at hs
    obtain ⟨before, hbefore, rfl⟩ := Option.map_eq_some_iff.mp hs
    have hone := List.all_eq_true.mp hall before (List.mem_of_getElem? hbefore)
    have hstands := h.stands_set hlane harrived other hbefore
    cases before with
    | arrived rest => exact ⟨rest, rfl, hstands.arrivals_of_arrived⟩
    | _ => cases hone
  have hfault : crew.fault = none := by
    cases hcrew : crew.fault with
    | none => rfl
    | some panic =>
      obtain ⟨_, other, hs⟩ := h.fault panic hcrew
      exact absurd hs (h.calm hp other panic)
  refine ⟨by rw [List.length_map, List.length_set, h.length], fun other station hs => ?_, fun _ => ?_,
    fun _ other panic hs => ?_, fun hpoisoned => ?_, fun panic hf => ?_, fun other panic hs _ => ?_⟩
  · obtain ⟨rest, rfl, hcount⟩ := hrunning other station hs
    exact .running rest hcount
  · rw [List.all_eq_false]
    have hget : ((crew.stations.set lane (.arrived next)).map Station.passed)[lane]? =
        some (.running next) := by
      rw [List.getElem?_map, List.getElem?_set_self hlength]
      rfl
    exact ⟨_, List.mem_of_getElem? hget, Bool.false_ne_true⟩
  · obtain ⟨rest, hrest, _⟩ := hrunning other _ hs
    cases hrest
  · rw [show crew.poisoned = true from hpoisoned] at hp
    cases hp
  · rw [show crew.fault = some panic from hf] at hfault
    cases hfault
  · obtain ⟨rest, hrest, _⟩ := hrunning other _ hs
    cases hrest

/-- **Every turn keeps the lanes of a block together.** -/
theorem Abreast.turn {callbacks : Callbacks σ α} {store : Store α} (h : Abreast lanes segment crew log)
    (hturn : Turn callbacks crew lane store crew' deed) :
    ∃ segment', Abreast lanes segment' crew' (log ++ deed.toList.map fun deed => (lane, deed)) := by
  have hnow := fun (station : Station σ α β) => h.stands lane station
  have hlive : ∀ {station : Station σ α β} (now : Station σ α β), crew.stations[lane]? = some now →
      station.isArrived = false → (crew.stations.set lane station).all Station.isArrived = false := by
    intro station now hs hstation
    rw [List.all_eq_false]
    have hget : (crew.stations.set lane station)[lane]? = some station :=
      List.getElem?_set_self (List.getElem?_eq_some_iff.mp hs).1
    exact ⟨station, List.mem_of_getElem? hget, by rw [hstation]; exact Bool.false_ne_true⟩
  cases hturn with
  | rests _ =>
    rw [Option.toList_none, List.map_nil, List.append_nil]
    exact ⟨segment, h⟩
  | finishes hs =>
    exact ⟨segment, h.moved hs rfl rfl rfl rfl (.finished _ (hnow _ hs).arrivals_of_running) nofun
      (hlive _ hs rfl)⟩
  | faults hs =>
    exact ⟨segment, h.unwinds hs rfl rfl rfl rfl (.panicked _ rfl (hnow _ hs).arrivals_of_running)
      fun _ => ⟨_, rfl, rfl⟩⟩
  | asks hs _ =>
    refine ⟨segment, h.moved hs rfl rfl rfl rfl (.running _ ?_) nofun (hlive _ hs rfl)⟩
    rw [Option.toList_some, Deed.arrivals_concat, (hnow _ hs).arrivals_of_running]
    rfl
  | panics hs _ =>
    exact ⟨segment, h.unwinds hs rfl rfl rfl rfl (.panicked _ rfl (hnow _ hs).arrivals_of_running)
      fun _ => ⟨_, rfl, rfl⟩⟩
  | waits hs _ hshut =>
    exact ⟨segment, h.moved hs rfl rfl rfl rfl (.arrived _ (hnow _ hs).arrivals_of_running) nofun hshut⟩
  | opens hs hp hall => exact ⟨segment + 1, h.opens hs hp hall⟩
  | turnedAway hs hp =>
    refine ⟨segment, h.unwinds hs rfl rfl rfl rfl (.released (hnow _ hs).arrivals_of_running) ?_⟩
    intro hp'
    rw [hp] at hp'
    cases hp'
  | released hs hp =>
    refine ⟨segment, h.unwinds hs rfl rfl rfl rfl ?_ ?_⟩
    · rw [Option.toList_none, List.append_nil]
      exact (hnow _ hs).release
    · intro hp'
      rw [hp] at hp'
      cases hp'

/-! ## How a block comes to its end -/

/-- A panic with something to report is one of the lane's own. -/
theorem Abreast.raises (h : Abreast lanes segment crew log) {panic : Panic}
    (hs : crew.stations[lane]? = some (.unwound panic)) (hrelease : panic.isRelease = false) :
    crew.Raises log lane panic := by
  refine ⟨hs, ?_⟩
  have hstands := h.stands lane _ hs
  generalize own lane log = deeds at hstands ⊢
  cases hstands with
  | panicked _ hdeed _ => exact ⟨_, _, rfl, hdeed⟩
  | released _ => cases hrelease

/-- **The fault of a block is a panic of one of its lanes.** -/
theorem Abreast.raises_of_fault (h : Abreast lanes segment crew log) {panic : Panic}
    (hfault : crew.fault = some panic) : panic.isRelease = false ∧ ∃ lane, crew.Raises log lane panic := by
  obtain ⟨hrelease, lane, hs⟩ := h.fault panic hfault
  exact ⟨hrelease, lane, h.raises hs hrelease⟩

/-- **A block has no fault if and only if its lanes raise nothing but the release signal.** -/
theorem Abreast.fault_eq_none_iff (h : Abreast lanes segment crew log) :
    crew.fault = none ↔ ∀ lane panic, crew.Raises log lane panic → panic.isRelease = true := by
  constructor
  · intro hnone lane panic hraises
    by_contra hrelease
    have hsome := h.faulted lane panic hraises.1 (Bool.eq_false_iff.mpr hrelease)
    rw [hnone] at hsome
    cases hsome
  · intro hall
    cases hfault : crew.fault with
    | none => rfl
    | some panic =>
      obtain ⟨hrelease, lane, hraises⟩ := h.raises_of_fault hfault
      rw [hall lane panic hraises] at hrelease
      cases hrelease

/-- Where a lane of a block that is over stands. -/
theorem Abreast.exists_over (h : Abreast lanes segment crew log) (hover : crew.isOver = true)
    (hlane : lane < lanes) : ∃ station, crew.stations[lane]? = some station ∧ station.isOver = true := by
  have hget := List.getElem?_eq_getElem (h.length ▸ hlane : lane < crew.stations.length)
  exact ⟨_, hget, List.all_eq_true.mp hover _ (List.mem_of_getElem? hget)⟩

/-- **A block that is over has finished if and only if none of its lanes has raised a panic.** -/
theorem Abreast.finished_iff (h : Abreast lanes segment crew log) (hover : crew.isOver = true) :
    (∀ lane < lanes, ∃ result, crew.stations[lane]? = some (.finished result)) ↔
      ∀ lane panic, ¬ crew.Raises log lane panic := by
  constructor
  · intro hall lane panic hraises
    have hlane : lane < lanes := h.length ▸ (List.getElem?_eq_some_iff.mp hraises.1).1
    obtain ⟨result, hs⟩ := hall lane hlane
    rw [hraises.1] at hs
    cases hs
  · intro hnone lane hlane
    have hcalm : crew.poisoned = false := by
      by_contra hp
      obtain ⟨other, panic, hraises⟩ := h.source (by simpa using hp)
      exact hnone other panic hraises
    obtain ⟨station, hs, hstation⟩ := h.exists_over hover hlane
    cases station with
    | finished result => exact ⟨result, hs⟩
    | unwound panic => exact absurd hs (h.calm hcalm lane panic)
    | running program => cases hstation
    | arrived next => cases hstation

/-- How a lane comes to its end in a block with a panic in some segment. -/
inductive Outcome (crew : Crew σ α β) (log : List (Nat × Deed σ α)) (segment lane : Nat) : Prop
  /-- It panics in this segment. -/
  | panics (panic : Panic) (raises : crew.Raises log lane panic)
    (count : Deed.arrivals (own lane log) = segment)
  /-- It comes to its normal end in this segment. -/
  | finishes (result : β) (ends : crew.stations[lane]? = some (.finished result))
    (count : Deed.arrivals (own lane log) = segment)
  /-- It does the whole segment, comes to the barrier behind it, and does nothing more. -/
  | stops (early : List (Deed σ α)) (ends : crew.stations[lane]? = some (.unwound (.raised .barrierPoisoned)))
    (last : own lane log = early ++ [.arrives]) (count : Deed.arrivals early = segment)

/-- **The lanes of a block that is over have come to their ends in one segment.** -/
theorem Abreast.outcome (h : Abreast lanes segment crew log) (hover : crew.isOver = true)
    (hlane : lane < lanes) : crew.Outcome log segment lane := by
  obtain ⟨station, hget, hstation⟩ := h.exists_over hover hlane
  have hstands := h.stands lane station hget
  generalize hdeeds : own lane log = deeds at hstands
  cases hstands with
  | running _ _ => cases hstation
  | arrived _ _ => cases hstation
  | finished result hcount =>
    refine .finishes result hget ?_
    rw [hdeeds, Deed.arrivals_concat, hcount]
    rfl
  | panicked panic hdeed hcount =>
    refine .panics panic ⟨hget, _, _, hdeeds, hdeed⟩ ?_
    rw [hdeeds, Deed.arrivals_concat, hdeed, hcount]
    rfl
  | released hcount => exact .stops _ hget hdeeds hcount

end Crew

end BlockMachine
