import BlockMachine.Proofs.Interleaving.Scene

/-!
# Any order of the lanes of a block

A block whose stages are without clashes does the same in every order of its lanes.

* `Crew.Follows` — a block under way follows a run.
* `Crew.Follows.turn`, `Crew.Follows.run` — turns of lanes keep it on its run.
* `Crew.run_store` — what the block leaves is what the requests of its log leave.
* `Crew.Follows.environment` — other blocks cannot take it off its run.
-/

set_option autoImplicit false

namespace BlockMachine

open History

variable {σ α β : Type}

theorem Deed.mem_requests {τ : Type} {log : List (τ × Deed σ α)} {request : Request σ α} :
    request ∈ Deed.requests log ↔ ∃ party, (party, .asks request) ∈ log := by
  unfold Deed.requests
  rw [List.mem_filterMap]
  constructor
  · rintro ⟨⟨party, deed⟩, hmem, h⟩
    cases deed with
    | asks other =>
      obtain rfl := Option.some.inj h
      exact ⟨party, hmem⟩
    | arrives => cases h
    | ends => cases h
  · rintro ⟨party, hmem⟩
    exact ⟨_, hmem, rfl⟩

namespace Crew

variable {callbacks : Callbacks σ α} {lanes : Nat} {scene : Scene callbacks lanes β}
  {history : List (Nat × Request σ α)} {crew : Crew σ α β} {calls calls' : Array Nat}
  {log : List (Nat × Deed σ α)}

/-! ## Following a run -/

/-- A block under way follows a run, which is given by what is to be seen at first, its stages and its
stops. -/
def Follows (callbacks : Callbacks σ α) (lanes : Nat) (first : Sight σ) (stages : List (Stage σ α))
    (stops : Nat → Stop σ α β) (crew : Crew σ α β) (calls : Array Nat)
    (log : List (Nat × Deed σ α)) : Prop :=
  ∃ (scene : Scene callbacks lanes β) (history : List (Nat × Request σ α)),
    scene.stages = stages ∧
    scene.sight = first.after (scene.past.flatMap fun stage => stage.all lanes) ∧
    Block.Runs callbacks lanes scene.programs scene.sight (scene.stage :: scene.future) stops ∧
    Within scene history crew calls log

/-- The first scene of a run. -/
theorem exists_scene {programs : Nat → Lane σ α β} {sight : Sight σ} {stages : List (Stage σ α)}
    {stops : Nat → Stop σ α β} (h : Block.Runs callbacks lanes programs sight stages stops)
    (past : List (Stage σ α)) :
    ∃ scene : Scene callbacks lanes β, scene.past = past ∧ scene.programs = programs ∧
      scene.sight = sight ∧ scene.stage :: scene.future = stages := by
  cases h with
  | stop segment apart _ =>
    exact ⟨⟨past, _, [], programs, sight, _, segment, apart⟩, rfl, rfl, rfl, rfl⟩
  | pass segment apart _ =>
    exact ⟨⟨past, _, _, programs, sight, _, segment, apart⟩, rfl, rfl, rfl, rfl⟩

/-- A crew all of whose lanes are at the start of a stage. -/
theorem within_start (scene : Scene callbacks lanes β) (hlanes : 0 < lanes) {crew : Crew σ α β}
    {calls : Array Nat} {log : List (Nat × Deed σ α)}
    (hstations : crew.stations = (List.range lanes).map fun lane => .running (scene.programs lane))
    (hlog : ∀ entry ∈ log, entry.1 < lanes)
    (hown : ∀ lane < lanes, own lane log = Stage.deeds scene.past lane)
    (hslots : crew.slots = scene.sight.slots)
    (hcalls : ∀ index, Stage.Asked callbacks lanes scene.stages index →
      calls[index]? = scene.sight.calls[index]?)
    (hpoisoned : crew.poisoned = false) (hfault : crew.fault = none) :
    Within scene [] crew calls log := by
  have hstation : ∀ lane < lanes,
      crew.stations[lane]? = some (.running (scene.programs lane)) := by
    intro lane hlane
    rw [hstations, List.getElem?_map, List.getElem?_range hlane]
    rfl
  refine ⟨by simp [hstations], fun _ h => absurd h List.not_mem_nil, hlog, hslots, hcalls,
    ?_, ?_, ?_, ?_, ?_⟩
  · intro lane hlane
    refine ⟨_, hstation lane hlane, scene.stage lane, [], rfl,
      .running (scene.segment lane hlane), ?_⟩
    rw [hown lane hlane]
    exact (List.append_nil _).symm
  · rw [List.all_eq_false]
    exact ⟨_, List.mem_of_getElem? (hstation 0 hlanes), by simp [Station.isArrived]⟩
  · intro lane panic hs
    by_cases hlane : lane < lanes
    · rw [hstation lane hlane] at hs
      cases hs
    · rw [hstations, List.getElem?_map, List.getElem?_eq_none (by simp; omega)] at hs
      cases hs
  · intro hp
    rw [hpoisoned] at hp
    cases hp
  · intro panic hf
    rw [hfault] at hf
    cases hf

/-- A block about to begin follows its run. -/
theorem Follows.start {programs : Nat → Lane σ α β} {sight : Sight σ} {stages : List (Stage σ α)}
    {stops : Nat → Stop σ α β} (h : Block.Runs callbacks lanes programs sight stages stops)
    {calls : Array Nat}
    (hcalls : ∀ index, Stage.Asked callbacks lanes stages index →
      calls[index]? = sight.calls[index]?) :
    Follows callbacks lanes sight stages stops
      (Crew.start sight.slots ((List.range lanes).map programs)) calls [] := by
  obtain ⟨scene, hpast, rfl, rfl, rfl⟩ := exists_scene h []
  have hstages : scene.stages = scene.stage :: scene.future := by
    rw [Scene.stages, hpast]
    rfl
  refine ⟨scene, [], hstages, by rw [hpast]; rfl, h, within_start scene h.lanes_pos ?_
    (fun _ h => absurd h List.not_mem_nil) ?_ rfl ?_ rfl rfl⟩
  · simp only [Crew.start, List.map_map]
    rfl
  · intro lane _
    rw [hpast]
    rfl
  · intro index hasked
    exact hcalls index (hstages ▸ hasked)

/-- What other blocks ask for does not take a block off its run. -/
theorem Follows.environment {first : Sight σ} {stages : List (Stage σ α)} {stops : Nat → Stop σ α β}
    (h : Follows callbacks lanes first stages stops crew calls log)
    (hcalls : ∀ index, Stage.Asked callbacks lanes stages index →
      calls'[index]? = calls[index]?) :
    Follows callbacks lanes first stages stops crew calls' log := by
  obtain ⟨scene, history, rfl, hsight, hruns, hwithin⟩ := h
  exact ⟨scene, history, rfl, hsight, hruns, { hwithin with
    calls := fun index hasked => (hcalls index hasked).trans (hwithin.calls index hasked) }⟩

/-- Where a lane stands when all have arrived at the barrier. -/
theorem Within.arrived (h : Within scene history crew calls log) {lane : Nat} (hlane : lane < lanes)
    {next : Lane σ α β} (hstation : crew.stations[lane]? = some (.running (.barrier next)))
    (hall : (crew.stations.set lane (.arrived next)).all Station.isArrived = true) :
    ∀ other < lanes, ∃ rest,
      (crew.stations.set lane (.arrived next))[other]? = some (.arrived rest) ∧
      scene.ends other = .waiting rest ∧ scene.stage other = own other history ∧
      own other (log ++ [(lane, .arrives)]) = Stage.deeds (scene.past ++ [scene.stage]) other := by
  intro other hother
  by_cases he : other = lane
  · subst he
    obtain ⟨hstage, hends, hown⟩ := h.arriving hlane hstation
    refine ⟨next, List.getElem?_set_self (by rw [h.length]; exact hlane), hends, hstage, ?_⟩
    rw [own_concat, if_pos rfl, hown, Stage.deeds_concat, hstage, List.append_assoc]
  · obtain ⟨station, hs, rest, tail, hstage, hstanding, hown⟩ := h.places other hother
    have hset : (crew.stations.set lane (.arrived next))[other]? = some station := by
      rw [List.getElem?_set_ne (Ne.symm he), hs]
    have harrived : station.isArrived = true :=
      List.all_eq_true.mp hall station (List.mem_of_getElem? hset)
    generalize scene.ends other = stop at hstanding ⊢
    cases hstanding with
    | arrived rest =>
      rw [List.append_nil] at hstage
      refine ⟨rest, hset, rfl, hstage, ?_⟩
      rw [own_concat, if_neg (Ne.symm he), hown, Stage.deeds_concat, hstage]
    | _ => cases harrived

/-- **When the last lane arrives**, the barrier opens and the block is at the start of the next
stage of its run. -/
theorem Within.opens {first : Sight σ} {stops : Nat → Stop σ α β}
    (hfirst : scene.sight = first.after (scene.past.flatMap fun stage => stage.all lanes))
    (hruns : Block.Runs callbacks lanes scene.programs scene.sight (scene.stage :: scene.future) stops)
    (h : Within scene history crew calls log) {lane : Nat} (hlane : lane < lanes)
    {next : Lane σ α β} (hstation : crew.stations[lane]? = some (.running (.barrier next)))
    (hp : crew.poisoned = false)
    (hall : (crew.stations.set lane (.arrived next)).all Station.isArrived = true) :
    Follows callbacks lanes first scene.stages stops (crew.moved lane (.arrived next)).opened calls
      (log ++ [(lane, .arrives)]) := by
  have harrived := h.arrived hlane hstation hall
  have hopened : (crew.moved lane (.arrived next)).opened =
      { crew with stations := (crew.stations.set lane (.arrived next)).map Station.passed } :=
    if_pos hall
  have hafter : scene.sight.after (history.map Prod.snd) =
      scene.sight.after (scene.stage.all lanes) :=
    Stage.after_eq_all scene.apart h.history_lt
      (fun other hother => (harrived other hother).choose_spec.2.2.1.symm) scene.sight
  -- a run that stops here has a lane that does not wait
  generalize hstages : scene.stage :: scene.future = stages at hruns
  cases hruns with
  | stop segment _ halts =>
    obtain ⟨other, hother, hnone⟩ := halts
    obtain ⟨rest, _, hends, _⟩ := harrived other hother
    have hsegment := (segment other hother).symm.trans (scene.segment other hother)
    rw [(Prod.mk.inj hsegment).2, hends] at hnone
    cases hnone
  | pass segment _ later =>
    obtain ⟨hstage, hfuture⟩ := List.cons.inj hstages
    obtain ⟨scene', hpast, hprograms, hsight, hrest⟩ :=
      exists_scene later (scene.past ++ [scene.stage])
    have hall' : scene'.stages = scene.stages := by
      rw [Scene.stages, Scene.stages, hpast, hrest, List.append_assoc, hfuture]
      rfl
    have hstart : scene'.sight = scene.sight.after (history.map Prod.snd) := by
      rw [hsight, hafter, hstage]
    refine ⟨scene', [], hall', ?_, hrest.symm ▸ hprograms ▸ hsight ▸ later,
      within_start scene' (Nat.zero_lt_of_lt hlane) ?_ (lt_of_one hlane h.log_lt (.inr ⟨_, rfl⟩)) ?_
        ?_ ?_ ?_ ?_⟩
    · rw [hstart, hafter, hpast, hfirst, List.flatMap_append, Sight.after_append, List.flatMap_cons,
        List.flatMap_nil, List.append_nil]
    · rw [hopened]
      apply List.ext_getElem?
      intro other
      by_cases hother : other < lanes
      · obtain ⟨rest, hset, hends, _⟩ := harrived other hother
        have hsegment := (segment other hother).symm.trans (scene.segment other hother)
        rw [hends] at hsegment
        have hnext := Stop.waiting.inj (Prod.mk.inj hsegment).2
        rw [List.getElem?_map, hset, List.getElem?_map, List.getElem?_range hother, hprograms, ← hnext]
        rfl
      · rw [List.getElem?_eq_none (by simp [h.length]; omega), List.getElem?_eq_none (by simp; omega)]
    · intro other hother
      obtain ⟨_, _, _, _, hown⟩ := harrived other hother
      rw [hpast, hown]
    · rw [hopened, hstart]
      exact h.slots
    · intro index hasked
      rw [hstart]
      exact h.calls index (hall' ▸ hasked)
    · rw [hopened]
      exact hp
    · rw [hopened]
      cases hfault : crew.fault with
      | none => rfl
      | some panic =>
        obtain ⟨other, hother, hends⟩ := h.fault panic hfault
        obtain ⟨rest, _, hends', _⟩ := harrived other hother
        rw [hends] at hends'
        cases hends'

/-- **One turn of a lane keeps a block on its run.** -/
theorem Follows.turn {first : Sight σ} {stages : List (Stage σ α)}
    {stops : Nat → Stop σ α β} {store : Store α}
    (h : Follows callbacks lanes first stages stops crew store.journal.calls log) (lane : Nat) :
    Follows callbacks lanes first stages stops (crew.turn callbacks lane store).1
      (crew.turn callbacks lane store).2.journal.calls
      (log ++ (crew.deed? lane).toList.map fun deed => (lane, deed)) := by
  have hfollows := h
  obtain ⟨scene, history, rfl, hfirst, hruns, hwithin⟩ := h
  have hlane : ∀ station, crew.stations[lane]? = some station → lane < lanes := by
    intro station hs
    obtain ⟨hlt, _⟩ := List.getElem?_eq_some_iff.mp hs
    rwa [hwithin.length] at hlt
  have hidle : Follows callbacks lanes first scene.stages stops crew store.journal.calls (log ++ []) := by
    rw [List.append_nil]
    exact hfollows
  unfold Crew.turn Crew.deed?
  cases hs : crew.stations[lane]? with
  | none => exact hidle
  | some station =>
    cases station with
    | finished result => exact hidle
    | unwound panic => exact hidle
    | arrived next =>
      by_cases hp : crew.poisoned = true
      · simp only [hp, if_true]
        refine ⟨scene, history, rfl, hfirst, hruns, ?_⟩
        simpa [Station.deed?] using hwithin.released (hlane _ hs) hs hp
      · simp only [hp]
        exact hidle
    | running program =>
      cases program with
      | done result => exact ⟨scene, history, rfl, hfirst, hruns, hwithin.done (hlane _ hs) hs⟩
      | fault panic => exact ⟨scene, history, rfl, hfirst, hruns, hwithin.faulted (hlane _ hs) hs⟩
      | ask request next =>
        obtain ⟨history', hask⟩ := hwithin.ask (hlane _ hs) hs
        exact ⟨scene, history', rfl, hfirst, hruns, hask⟩
      | barrier next =>
        by_cases hp : crew.poisoned = true
        · simp only [atBarrier, hp, if_true]
          exact ⟨scene, history, rfl, hfirst, hruns, hwithin.turnedAway (hlane _ hs) hs hp⟩
        · by_cases hall : (crew.stations.set lane (.arrived next)).all Station.isArrived = true
          · simp only [atBarrier, hp]
            exact hwithin.opens hfirst hruns (hlane _ hs) hs (Bool.eq_false_iff.mpr hp) hall
          · have hshut : (crew.moved lane (.arrived next)).opened =
                crew.moved lane (.arrived next) := by
              simp only [opened, moved, hall]
              rfl
            simp only [atBarrier, hp, hshut]
            exact ⟨scene, history, rfl, hfirst, hruns,
              hwithin.waits (hlane _ hs) hs (Bool.eq_false_iff.mpr hall)⟩

/-- After its last request of a stage a lane asks nothing. -/
theorem not_asks_of_standing {alone : Sight σ} {station : Station σ α β} {rest : List (Request σ α)}
    {stop : Stop σ α β} {tail : List (Deed σ α)} (h : Standing callbacks alone station rest stop tail)
    (request : Request σ α) : .asks request ∉ tail := by
  cases h <;> simp

/-- **What a lane has asked belongs to its share of a stage.** -/
theorem Follows.mem_stage {first : Sight σ} {stages : List (Stage σ α)} {stops : Nat → Stop σ α β}
    (h : Follows callbacks lanes first stages stops crew calls log) {lane : Nat}
    {request : Request σ α} (hmem : (lane, .asks request) ∈ log) :
    lane < lanes ∧ ∃ stage ∈ stages, request ∈ stage lane := by
  obtain ⟨scene, history, rfl, _, _, hwithin⟩ := h
  have hlane := hwithin.log_lt _ hmem
  obtain ⟨_, _, rest, tail, hstage, hstanding, hown⟩ := hwithin.places lane hlane
  have hdeed := mem_own.mpr hmem
  rw [hown] at hdeed
  refine ⟨hlane, ?_⟩
  rcases List.mem_append.mp hdeed with hpast | hdeed
  · obtain ⟨stage, hstage, hdeed⟩ := List.mem_flatMap.mp hpast
    refine ⟨stage, List.mem_append_left _ hstage, ?_⟩
    simpa using hdeed
  · rcases List.mem_append.mp hdeed with hnow | htail
    · refine ⟨scene.stage, scene.stage_mem, ?_⟩
      rw [hstage]
      exact List.mem_append_left _ (by simpa using hnow)
    · exact absurd htail (not_asks_of_standing hstanding request)

/-! ## Runs -/

/-- The store after a turn holds what its request leaves. -/
theorem turn_store (callbacks : Callbacks σ α) (crew : Crew σ α β) (lane : Nat) (store : Store α) :
    (crew.turn callbacks lane store).2 = store.after callbacks.element
      (Deed.requests ((crew.deed? lane).toList.map fun deed => (lane, deed))) := by
  unfold turn deed?
  cases hs : crew.stations[lane]? with
  | none => rfl
  | some station =>
    cases station with
    | finished _ => rfl
    | unwound _ => rfl
    | arrived _ =>
      by_cases hp : crew.poisoned = true
      · simp only [hp, if_true]
        rfl
      · simp only [hp]
        rfl
    | running program =>
      cases program with
      | done _ => rfl
      | fault _ => rfl
      | barrier _ => rfl
      | ask request next =>
        show (crew.answered lane next (Machine.perform callbacks request ⟨crew.slots, store⟩)).2 =
          request.leave callbacks.element store
        rw [Machine.perform_eq]
        cases request.answer callbacks (⟨crew.slots, store⟩ : Machine σ α).sight <;> rfl

/-- **A run of a crew leaves what the requests of its log leave.** -/
theorem run_store (callbacks : Callbacks σ α) (crew : Crew σ α β) (store : Store α)
    (lanes : List Nat) :
    (crew.run callbacks store lanes).2 =
      store.after callbacks.element (Deed.requests (crew.log callbacks store lanes)) := by
  induction lanes generalizing crew store with
  | nil => rfl
  | cons lane rest ih =>
    have hlog : Deed.requests (crew.log callbacks store (lane :: rest)) =
        Deed.requests ((crew.deed? lane).toList.map fun deed => (lane, deed)) ++
          Deed.requests ((crew.turn callbacks lane store).1.log callbacks
            (crew.turn callbacks lane store).2 rest) :=
      List.filterMap_append
    rw [hlog, Store.after_append, ← turn_store, ← ih]
    rfl

/-- **Any turns of the lanes keep a block on its run.** -/
theorem Follows.run {first : Sight σ} {stages : List (Stage σ α)} {stops : Nat → Stop σ α β}
    {store : Store α} (h : Follows callbacks lanes first stages stops crew store.journal.calls log)
    (turns : List Nat) :
    Follows callbacks lanes first stages stops (crew.run callbacks store turns).1
      (crew.run callbacks store turns).2.journal.calls (log ++ crew.log callbacks store turns) := by
  induction turns generalizing crew store log with
  | nil => simpa [Crew.run, Crew.log] using h
  | cons lane rest ih =>
    have hrest := ih (h.turn lane)
    rw [List.append_assoc] at hrest
    exact hrest

end Crew

end BlockMachine
