import BlockMachine.Interleaving.Log
import BlockMachine.Proofs.Block.Stage

/-!
# A block in the middle of a stage

* `Scene` — one stage of a run, with what comes before and after it.
* `Standing` — where a lane stands in a stage, and what is left for it to do.
* `Crew.Within` — a block under way is in a scene: so far each lane has done the first part of its share,
  and what the lanes see is as the scene tells.
* `Crew.Within.ask`, `.done`, `.faulted`, `.waits`, `.turnedAway`, `.released` — whatever a lane does, short
  of opening a barrier, keeps the block in its scene.
-/

set_option autoImplicit false

namespace BlockMachine

open History

variable {σ α β : Type}

/-! ## Requests and what they change -/

namespace Request

/-- The slots after a request hang only on the slots before it. -/
theorem see_slots_congr (request : Request σ α) {a b : Sight σ} (h : a.slots = b.slots) :
    (request.see a).slots = (request.see b).slots := by
  cases request <;> simp only [see, h]

/-- How often an item was asked for after a request hangs only on how often it was before. -/
theorem see_calls_congr (request : Request σ α) {a b : Sight σ} {index : Nat}
    (h : a.calls[index]? = b.calls[index]?) :
    (request.see a).calls[index]? = (request.see b).calls[index]? := by
  cases request with
  | fetch place => simp only [see, Array.getElem?_modify, h]
  | _ => exact h

end Request

/-! ## Scenes -/

/-- What a lane has done when it has passed some stages. -/
def Stage.deeds (stages : List (Stage σ α)) (lane : Nat) : List (Deed σ α) :=
  stages.flatMap fun stage => (stage lane).map .asks ++ [.arrives]

theorem Stage.deeds_concat (stages : List (Stage σ α)) (stage : Stage σ α) (lane : Nat) :
    Stage.deeds (stages ++ [stage]) lane =
      Stage.deeds stages lane ++ ((stage lane).map .asks ++ [.arrives]) := by
  simp [Stage.deeds]

/-- One stage of a run, with the stages before and after it. -/
structure Scene (callbacks : Callbacks σ α) (lanes : Nat) (β : Type) where
  past : List (Stage σ α)
  stage : Stage σ α
  future : List (Stage σ α)
  /-- The programs of the lanes at the start of the stage, and what is to be seen then. -/
  programs : Nat → Lane σ α β
  sight : Sight σ
  ends : Nat → Stop σ α β
  segment : ∀ lane < lanes, (programs lane).segment callbacks sight = (stage lane, ends lane)
  apart : stage.Apart callbacks lanes

namespace Scene

variable {callbacks : Callbacks σ α} {lanes : Nat}

/-- All stages of the run. -/
def stages (scene : Scene callbacks lanes β) : List (Stage σ α) :=
  scene.past ++ scene.stage :: scene.future

theorem stage_mem (scene : Scene callbacks lanes β) : scene.stage ∈ scene.stages :=
  List.mem_append_right _ List.mem_cons_self

end Scene

/-- Where a lane stands in a stage: what it sees alone, its station, the requests left, its stop, and
what it did after its last request. -/
inductive Standing (callbacks : Callbacks σ α) (alone : Sight σ) :
    Station σ α β → List (Request σ α) → Stop σ α β → List (Deed σ α) → Prop
  | running {program : Lane σ α β} {rest : List (Request σ α)} {stop : Stop σ α β}
      (h : program.segment callbacks alone = (rest, stop)) :
      Standing callbacks alone (.running program) rest stop []
  | arrived (next : Lane σ α β) :
      Standing callbacks alone (.arrived next) [] (.waiting next) [.arrives]
  | finished (result : β) :
      Standing callbacks alone (.finished result) [] (.finished result) [.ends]
  | refused (panic : Panic) : Standing callbacks alone (.unwound panic) [] (.faulted panic) []
  | faulted (panic : Panic) : Standing callbacks alone (.unwound panic) [] (.faulted panic) [.ends]
  | released (next : Lane σ α β) :
      Standing callbacks alone (.unwound (.raised .barrierPoisoned)) [] (.waiting next) [.arrives]

/-- A lane at a station has done a first part of its share of a scene. -/
def Scene.Places {callbacks : Callbacks σ α} {lanes : Nat} (scene : Scene callbacks lanes β)
    (lane : Nat) (station : Station σ α β) (history : List (Nat × Request σ α))
    (log : List (Nat × Deed σ α)) : Prop :=
  ∃ rest tail, scene.stage lane = own lane history ++ rest ∧
    Standing callbacks (scene.sight.after (own lane history)) station rest (scene.ends lane) tail ∧
    own lane log = Stage.deeds scene.past lane ++ ((own lane history).map .asks ++ tail)

namespace Scene

variable {callbacks : Callbacks σ α} {lanes : Nat} {scene : Scene callbacks lanes β}
  {lane : Nat} {history history' : List (Nat × Request σ α)} {log log' : List (Nat × Deed σ α)}

/-- Where a lane stands hangs only on what it did itself. -/
theorem Places.congr {station : Station σ α β} (h : scene.Places lane station history log)
    (hhistory : own lane history' = own lane history) (hlog : own lane log' = own lane log) :
    scene.Places lane station history' log' := by
  obtain ⟨rest, tail, hstage, hstanding, hown⟩ := h
  refine ⟨rest, tail, ?_, ?_, ?_⟩
  · rw [hhistory, hstage]
  · rw [hhistory]
    exact hstanding
  · rw [hlog, hown, hhistory]

/-- What a lane asks next, as it sees it alone. -/
theorem Places.running {program : Lane σ α β}
    (h : scene.Places lane (.running program) history log) :
    ∃ rest, scene.stage lane = own lane history ++ rest ∧
      program.segment callbacks (scene.sight.after (own lane history)) = (rest, scene.ends lane) ∧
      own lane log = Stage.deeds scene.past lane ++ (own lane history).map .asks := by
  obtain ⟨rest, tail, hstage, hstanding, hown⟩ := h
  cases hstanding with
  | running hsegment => exact ⟨rest, hstage, hsegment, by rw [hown, List.append_nil]⟩

/-- A lane that has made all its requests goes on without one. -/
theorem Places.concat {station : Station σ α β} {deed : Deed σ α}
    (hstage : scene.stage lane = own lane history)
    (hown : own lane log = Stage.deeds scene.past lane ++ (own lane history).map .asks)
    (hstanding : Standing callbacks (scene.sight.after (own lane history)) station []
      (scene.ends lane) [deed]) :
    scene.Places lane station history (log ++ [(lane, deed)]) := by
  refine ⟨[], [deed], by rw [hstage, List.append_nil], hstanding, ?_⟩
  rw [own_concat, if_pos rfl, hown, List.append_assoc]

end Scene

namespace Crew

/-- A crew in a scene, with what its lanes have asked in it, how often items have been asked for and
what the lanes have done since the block began. -/
structure Within {callbacks : Callbacks σ α} {lanes : Nat} (scene : Scene callbacks lanes β)
    (history : List (Nat × Request σ α)) (crew : Crew σ α β) (calls : Array Nat)
    (log : List (Nat × Deed σ α)) : Prop where
  length : crew.stations.length = lanes
  history_lt : ∀ entry ∈ history, entry.1 < lanes
  log_lt : ∀ entry ∈ log, entry.1 < lanes
  slots : crew.slots = (scene.sight.after (history.map Prod.snd)).slots
  calls : ∀ index, Stage.Asked callbacks lanes scene.stages index →
    calls[index]? = (scene.sight.after (history.map Prod.snd)).calls[index]?
  places : ∀ lane < lanes, ∃ station,
    crew.stations[lane]? = some station ∧ scene.Places lane station history log
  shut : crew.stations.all Station.isArrived = false
  unwound : ∀ (lane : Nat) (panic : Panic), crew.stations[lane]? = some (.unwound panic) →
    crew.poisoned = true
  poisoned : crew.poisoned = true → ∃ lane < lanes, ∃ panic, scene.ends lane = .faulted panic
  fault : ∀ panic, crew.fault = some panic → ∃ lane < lanes, scene.ends lane = .faulted panic

variable {callbacks : Callbacks σ α} {lanes : Nat} {scene : Scene callbacks lanes β}
  {history history' : List (Nat × Request σ α)} {crew : Crew σ α β} {calls calls' : Array Nat}
  {log log' : List (Nat × Deed σ α)}

/-- A property that not all lanes have fails at the station of one of them. -/
theorem Within.exists_station (h : Within scene history crew calls log) {property : Station σ α β → Bool}
    (hsome : crew.stations.all property = false) :
    ∃ lane < lanes, ∃ station, crew.stations[lane]? = some station ∧ ¬ property station = true := by
  obtain ⟨station, hmem, hnot⟩ := List.all_eq_false.mp hsome
  obtain ⟨lane, hlt, hget⟩ := List.getElem_of_mem hmem
  refine ⟨lane, h.length ▸ hlt, station, ?_, hnot⟩
  rw [List.getElem?_eq_getElem hlt, hget]

theorem all_set_eq_false {stations : List (Station σ α β)} {lane : Nat} {station : Station σ α β}
    (hlane : lane < stations.length) (h : station.isArrived = false) :
    (stations.set lane station).all Station.isArrived = false := by
  rw [List.all_eq_false]
  exact ⟨station, List.mem_set hlane station, by simp [h]⟩

/-- Only one lane has moved. -/
structure OneMoved (lane : Nat) (crew crew' : Crew σ α β) (station : Station σ α β)
    (history history' : List (Nat × Request σ α)) (log log' : List (Nat × Deed σ α)) : Prop where
  stations : crew'.stations = crew.stations.set lane station
  history : history' = history ∨ ∃ request, history' = history ++ [(lane, request)]
  log : log' = log ∨ ∃ deed, log' = log ++ [(lane, deed)]

/-- What the others did is not changed by one thing more of one lane. -/
theorem own_of_one {ρ : Type} {lane other : Nat} (hne : other ≠ lane) {first second : List (Nat × ρ)}
    (h : second = first ∨ ∃ deed, second = first ++ [(lane, deed)]) :
    own other second = own other first := by
  obtain rfl | ⟨deed, rfl⟩ := h
  · rfl
  · rw [own_concat, if_neg (Ne.symm hne)]

theorem lt_of_one {ρ : Type} {lane : Nat} (hlane : lane < lanes) {first second : List (Nat × ρ)}
    (hfirst : ∀ entry ∈ first, entry.1 < lanes)
    (h : second = first ∨ ∃ deed, second = first ++ [(lane, deed)]) :
    ∀ entry ∈ second, entry.1 < lanes := by
  obtain rfl | ⟨deed, rfl⟩ := h
  · exact hfirst
  · intro entry hentry
    rcases List.mem_append.mp hentry with hentry | hentry
    · exact hfirst entry hentry
    · rw [List.mem_singleton.mp hentry]
      exact hlane

/-- The move of one lane keeps a crew in its scene. -/
theorem Within.step (h : Within scene history crew calls log) {lane : Nat} (hlane : lane < lanes)
    {crew' : Crew σ α β} {station : Station σ α β}
    (one : OneMoved lane crew crew' station history history' log log')
    (hslots : crew'.slots = (scene.sight.after (history'.map Prod.snd)).slots)
    (hcalls : ∀ index, Stage.Asked callbacks lanes scene.stages index →
      calls'[index]? = (scene.sight.after (history'.map Prod.snd)).calls[index]?)
    (hplace : scene.Places lane station history' log')
    (hshut : crew'.stations.all Station.isArrived = false)
    (hkeeps : crew.poisoned = true → crew'.poisoned = true)
    (hunwound : ∀ panic, station = .unwound panic → crew'.poisoned = true)
    (hpoisoned : crew'.poisoned = true → crew.poisoned = true ∨ ∃ panic, scene.ends lane = .faulted panic)
    (hfault : ∀ panic, crew'.fault = some panic →
      crew.fault = some panic ∨ scene.ends lane = .faulted panic) :
    Within scene history' crew' calls' log' := by
  have hlength : lane < crew.stations.length := by rw [h.length]; exact hlane
  refine ⟨?_, lt_of_one hlane h.history_lt one.history, lt_of_one hlane h.log_lt one.log, hslots,
    hcalls, ?_, hshut, ?_, ?_, ?_⟩
  · rw [one.stations, List.length_set, h.length]
  · intro other hother
    by_cases he : other = lane
    · subst he
      exact ⟨station, by rw [one.stations, List.getElem?_set_self hlength], hplace⟩
    · obtain ⟨station', hstation', hplace'⟩ := h.places other hother
      refine ⟨station', ?_, hplace'.congr (own_of_one he one.history) (own_of_one he one.log)⟩
      rw [one.stations, List.getElem?_set_ne (Ne.symm he), hstation']
  · intro other panic hother
    rw [one.stations] at hother
    by_cases he : other = lane
    · subst he
      rw [List.getElem?_set_self hlength] at hother
      exact hunwound panic (Option.some.inj hother)
    · rw [List.getElem?_set_ne (Ne.symm he)] at hother
      exact hkeeps (h.unwound other panic hother)
  · intro hp
    rcases hpoisoned hp with hp | ⟨panic, hends⟩
    · exact h.poisoned hp
    · exact ⟨lane, hlane, panic, hends⟩
  · intro panic hf
    rcases hfault panic hf with hf | hends
    · exact h.fault panic hf
    · exact ⟨lane, hlane, hends⟩

/-- A lane goes to another station and does not unwind. -/
theorem Within.moved (h : Within scene history crew calls log) {lane : Nat} (hlane : lane < lanes)
    {slots : Array σ} {station : Station σ α β}
    (hhistory : history' = history ∨ ∃ request, history' = history ++ [(lane, request)])
    (hlog : log' = log ∨ ∃ deed, log' = log ++ [(lane, deed)])
    (hslots : slots = (scene.sight.after (history'.map Prod.snd)).slots)
    (hcalls : ∀ index, Stage.Asked callbacks lanes scene.stages index →
      calls'[index]? = (scene.sight.after (history'.map Prod.snd)).calls[index]?)
    (hplace : scene.Places lane station history' log')
    (hshut : (crew.stations.set lane station).all Station.isArrived = false)
    (hstays : ∀ panic, station ≠ .unwound panic) :
    Within scene history' ({ crew with slots := slots }.moved lane station) calls' log' :=
  h.step hlane ⟨rfl, hhistory, hlog⟩ hslots hcalls hplace hshut id
    (fun panic he => absurd he (hstays panic)) .inl fun _ => .inl

/-- A lane unwinds: with a panic of its own, or released from a barrier of a poisoned block. -/
theorem Within.unwinds (h : Within scene history crew calls log) {lane : Nat} (hlane : lane < lanes)
    {slots : Array σ} {panic : Panic}
    (hhistory : history' = history ∨ ∃ request, history' = history ++ [(lane, request)])
    (hlog : log' = log ∨ ∃ deed, log' = log ++ [(lane, deed)])
    (hslots : slots = (scene.sight.after (history'.map Prod.snd)).slots)
    (hcalls : ∀ index, Stage.Asked callbacks lanes scene.stages index →
      calls'[index]? = (scene.sight.after (history'.map Prod.snd)).calls[index]?)
    (hplace : scene.Places lane (.unwound panic) history' log')
    (hcause : scene.ends lane = .faulted panic ∨ crew.poisoned = true ∧ panic.isRelease = true) :
    Within scene history' ({ crew with slots := slots }.unwound lane panic) calls' log' := by
  have hlength : lane < crew.stations.length := by rw [h.length]; exact hlane
  refine h.step hlane ⟨rfl, hhistory, hlog⟩ hslots hcalls hplace
    (all_set_eq_false hlength rfl) (fun _ => rfl) (fun _ _ => rfl) (fun _ => ?_) fun other hf => ?_
  · rcases hcause with hends | ⟨hp, _⟩
    · exact .inr ⟨panic, hends⟩
    · exact .inl hp
  · simp only [Crew.unwound, Crew.moved] at hf
    cases hfault : crew.fault with
    | some first =>
      rw [hfault] at hf
      exact .inl hf
    | none =>
      rw [hfault] at hf
      rcases hcause with hends | ⟨_, hrelease⟩
      · by_cases hr : panic.isRelease = true
        · simp [hr] at hf
        · simp [hr] at hf
          exact .inr (hf ▸ hends)
      · simp [hrelease] at hf

/-- What has been asked in a stage belongs to the stage. -/
theorem Within.history_mem (h : Within scene history crew calls log) :
    ∀ entry ∈ history, entry.1 < lanes ∧ entry.2 ∈ scene.stage entry.1 := by
  intro entry hentry
  have hlane := h.history_lt entry hentry
  obtain ⟨_, _, rest, _, hstage, _⟩ := h.places entry.1 hlane
  refine ⟨hlane, ?_⟩
  rw [hstage]
  exact List.mem_append_left _ (mem_own.mpr hentry)

/-- A lane of a block under way sees what it would see alone. -/
theorem Within.agreeAt (h : Within scene history crew calls log) {lane : Nat} (hlane : lane < lanes)
    {request : Request σ α} (hr : request ∈ scene.stage lane) :
    Sight.AgreeAt callbacks request ⟨crew.slots, calls⟩
      (scene.sight.after (own lane history)) := by
  have hnow : Sight.AgreeAt callbacks request ⟨crew.slots, calls⟩
      (scene.sight.after (history.map Prod.snd)) := by
    refine ⟨by rw [h.slots], fun slot _ => by rw [h.slots], fun index hi hc => ?_⟩
    exact h.calls index ⟨hc, scene.stage, scene.stage_mem, request,
      Stage.mem_all.mpr ⟨lane, hlane, hr⟩, hi⟩
  exact hnow.trans (Stage.agreeAt_of_history scene.apart h.history_mem hlane hr scene.sight)

/-- A request of a lane keeps a crew in its scene. -/
theorem Within.ask {store : Store α} (h : Within scene history crew store.journal.calls log)
    {lane : Nat} (hlane : lane < lanes) {request : Request σ α}
    {next : request.Answer → Lane σ α β}
    (hstation : crew.stations[lane]? = some (.running (.ask request next))) :
    ∃ history', Within scene history'
      (crew.answered lane next (Machine.perform callbacks request ⟨crew.slots, store⟩)).1
      (crew.answered lane next (Machine.perform callbacks request ⟨crew.slots, store⟩)).2.journal.calls
      (log ++ [(lane, .asks request)]) := by
  obtain ⟨station, hs, hplace⟩ := h.places lane hlane
  obtain rfl : station = .running (.ask request next) := Option.some.inj (hs.symm.trans hstation)
  obtain ⟨rest, hstage, hsegment, hown⟩ := hplace.running
  have hlength : lane < crew.stations.length := by rw [h.length]; exact hlane
  have hr : request ∈ scene.stage lane := by
    rw [hstage]
    apply List.mem_append_right
    cases ha : request.answer callbacks (scene.sight.after (own lane history)) with
    | ok answer =>
      rw [Lane.segment_ask_ok ha] at hsegment
      exact (Prod.mk.inj hsegment).1 ▸ List.mem_cons_self
    | error panic =>
      rw [Lane.segment_ask_error ha] at hsegment
      exact (Prod.mk.inj hsegment).1 ▸ List.mem_cons_self
  have hagree := h.agreeAt hlane hr
  have hhistory : own lane (history ++ [(lane, request)]) = own lane history ++ [request] := by
    rw [own_concat, if_pos rfl]
  have hafter : scene.sight.after ((history ++ [(lane, request)]).map Prod.snd) =
      request.see (scene.sight.after (history.map Prod.snd)) := by
    rw [List.map_append, Sight.after_append]
    rfl
  have hslots : (request.see ⟨crew.slots, store.journal.calls⟩).slots =
      (scene.sight.after ((history ++ [(lane, request)]).map Prod.snd)).slots := by
    rw [hafter]
    exact request.see_slots_congr h.slots
  have hcalls : ∀ index, Stage.Asked callbacks lanes scene.stages index →
      (request.leave callbacks.element store).journal.calls[index]? =
        (scene.sight.after ((history ++ [(lane, request)]).map Prod.snd)).calls[index]? := by
    intro index hasked
    rw [hafter, Request.calls_leave callbacks.element request crew.slots store]
    exact request.see_calls_congr (h.calls index hasked)
  have hlog : own lane (log ++ [(lane, Deed.asks request)]) = Stage.deeds scene.past lane ++
      ((own lane (history ++ [(lane, request)])).map .asks ++ []) := by
    rw [own_concat, if_pos rfl, hown, hhistory]
    simp
  have hperform : Machine.perform callbacks request ⟨crew.slots, store⟩ =
      (request.answer callbacks (scene.sight.after (own lane history)),
        ⟨(request.see ⟨crew.slots, store.journal.calls⟩).slots,
          request.leave callbacks.element store⟩) := by
    rw [Machine.perform_eq, ← Request.answer_congr hagree]
    rfl
  refine ⟨history ++ [(lane, request)], ?_⟩
  rw [hperform]
  cases ha : request.answer callbacks (scene.sight.after (own lane history)) with
  | ok answer =>
    rw [Lane.segment_ask_ok ha] at hsegment
    obtain ⟨hrest, hends⟩ := Prod.mk.inj hsegment
    refine h.moved hlane (.inr ⟨request, rfl⟩) (.inr ⟨.asks request, rfl⟩) hslots hcalls ?_
      (all_set_eq_false hlength rfl) (fun _ he => by cases he)
    refine ⟨((next answer).segment callbacks
      (request.see (scene.sight.after (own lane history)))).1, [], ?_, ?_, hlog⟩
    · rw [hhistory, List.append_assoc, hstage, ← hrest]
      rfl
    · rw [hhistory, Sight.after_append]
      exact .running (by rw [← hends]; rfl)
  | error panic =>
    rw [Lane.segment_ask_error ha] at hsegment
    obtain ⟨hrest, hends⟩ := Prod.mk.inj hsegment
    refine h.unwinds hlane (.inr ⟨request, rfl⟩) (.inr ⟨.asks request, rfl⟩) hslots hcalls ?_
      (.inl hends.symm)
    refine ⟨[], [], ?_, ?_, hlog⟩
    · rw [hhistory, List.append_nil, hstage, ← hrest]
    · rw [← hends]
      exact .refused panic

/-- A lane that ends keeps a crew in its scene. -/
theorem Within.done (h : Within scene history crew calls log) {lane : Nat} (hlane : lane < lanes)
    {result : β} (hstation : crew.stations[lane]? = some (.running (.done result))) :
    Within scene history (crew.moved lane (.finished result)) calls (log ++ [(lane, .ends)]) := by
  obtain ⟨station, hs, hplace⟩ := h.places lane hlane
  obtain rfl : station = .running (.done result) := Option.some.inj (hs.symm.trans hstation)
  obtain ⟨rest, hstage, hsegment, hown⟩ := hplace.running
  obtain ⟨rfl, hends⟩ := Prod.mk.inj hsegment
  rw [List.append_nil] at hstage
  refine h.moved hlane (.inl rfl) (.inr ⟨.ends, rfl⟩) h.slots h.calls
    (Scene.Places.concat hstage hown (hends ▸ .finished result))
    (all_set_eq_false (by rw [h.length]; exact hlane) rfl) (fun _ he => by cases he)

/-- A fault of a lane keeps a crew in its scene. -/
theorem Within.faulted (h : Within scene history crew calls log) {lane : Nat} (hlane : lane < lanes)
    {panic : Panic} (hstation : crew.stations[lane]? = some (.running (.fault panic))) :
    Within scene history (crew.unwound lane panic) calls (log ++ [(lane, .ends)]) := by
  obtain ⟨station, hs, hplace⟩ := h.places lane hlane
  obtain rfl : station = .running (.fault panic) := Option.some.inj (hs.symm.trans hstation)
  obtain ⟨rest, hstage, hsegment, hown⟩ := hplace.running
  obtain ⟨rfl, hends⟩ := Prod.mk.inj hsegment
  rw [List.append_nil] at hstage
  exact h.unwinds hlane (.inl rfl) (.inr ⟨.ends, rfl⟩) h.slots h.calls
    (Scene.Places.concat hstage hown (hends ▸ .faulted panic)) (.inl hends.symm)

/-- A lane that waits at a barrier of a poisoned block is released from it. -/
theorem Within.released (h : Within scene history crew calls log) {lane : Nat} (hlane : lane < lanes)
    {next : Lane σ α β} (hstation : crew.stations[lane]? = some (.arrived next))
    (hp : crew.poisoned = true) :
    Within scene history (crew.unwound lane (.raised .barrierPoisoned)) calls log := by
  obtain ⟨station, hs, rest, tail, hstage, hstanding, hown⟩ := h.places lane hlane
  obtain rfl : station = .arrived next := Option.some.inj (hs.symm.trans hstation)
  refine h.unwinds hlane (.inl rfl) (.inl rfl) h.slots h.calls ?_ (.inr ⟨hp, rfl⟩)
  refine ⟨rest, tail, hstage, ?_, hown⟩
  generalize scene.ends lane = stop at hstanding ⊢
  cases hstanding with
  | arrived => exact .released next

/-- What a lane at a barrier has done. -/
theorem Within.arriving (h : Within scene history crew calls log) {lane : Nat} (hlane : lane < lanes)
    {next : Lane σ α β} (hstation : crew.stations[lane]? = some (.running (.barrier next))) :
    scene.stage lane = own lane history ∧ scene.ends lane = .waiting next ∧
      own lane log = Stage.deeds scene.past lane ++ (own lane history).map .asks := by
  obtain ⟨station, hs, hplace⟩ := h.places lane hlane
  obtain rfl : station = .running (.barrier next) := Option.some.inj (hs.symm.trans hstation)
  obtain ⟨rest, hstage, hsegment, hown⟩ := hplace.running
  obtain ⟨rfl, hends⟩ := Prod.mk.inj hsegment
  rw [List.append_nil] at hstage
  exact ⟨hstage, hends.symm, hown⟩

/-- A lane that comes to a barrier of a poisoned block unwinds. -/
theorem Within.turnedAway (h : Within scene history crew calls log) {lane : Nat}
    (hlane : lane < lanes) {next : Lane σ α β}
    (hstation : crew.stations[lane]? = some (.running (.barrier next)))
    (hp : crew.poisoned = true) :
    Within scene history (crew.unwound lane (.raised .barrierPoisoned)) calls
      (log ++ [(lane, .arrives)]) := by
  obtain ⟨hstage, hends, hown⟩ := h.arriving hlane hstation
  exact h.unwinds hlane (.inl rfl) (.inr ⟨.arrives, rfl⟩) h.slots h.calls
    (Scene.Places.concat hstage hown (hends ▸ .released next)) (.inr ⟨hp, rfl⟩)

/-- A lane that comes to a barrier and has to wait keeps a crew in its scene. -/
theorem Within.waits (h : Within scene history crew calls log) {lane : Nat} (hlane : lane < lanes)
    {next : Lane σ α β} (hstation : crew.stations[lane]? = some (.running (.barrier next)))
    (hshut : (crew.stations.set lane (.arrived next)).all Station.isArrived = false) :
    Within scene history (crew.moved lane (.arrived next)) calls (log ++ [(lane, .arrives)]) := by
  obtain ⟨hstage, hends, hown⟩ := h.arriving hlane hstation
  exact h.moved hlane (.inl rfl) (.inr ⟨.arrives, rfl⟩) h.slots h.calls
    (Scene.Places.concat hstage hown (hends ▸ .arrived next)) hshut (fun _ he => by cases he)

end Crew

end BlockMachine
