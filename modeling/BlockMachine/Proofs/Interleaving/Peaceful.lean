import BlockMachine.Proofs.Interleaving.InOrder
import BlockMachine.Proofs.Launch.Plan

/-!
# Blocks whose lanes keep out of each other's way

Nothing is known here about the programs of a block but what its runs show: no lane panics, no lane waits for
one that has come to its end, and no two lanes clash between two barriers.  Such a block has a run in stages,
and so does the same in every order of its lanes.

* `Crew.log_append`, `Crew.run_slots` — logs of runs, and what they leave in the slots.
* `Crew.Peaceful` — such a block, and `Crew.Peaceful.after` says that it stays so.
* `Crew.Peaceful.exists_log_stage` — the lanes of such a block make the requests of a stage, one after the other.
* `Crew.Peaceful.exists_runs` — the run in stages.
-/

set_option autoImplicit false

namespace BlockMachine

open History

variable {σ α β : Type}

/-! ## Segments of a log -/

namespace Deed

/-- What a lane asks in a later part of its log belongs to a later segment. -/
theorem mem_segment_append {early late : List (Deed σ α)} {barriers : Nat} {request : Request σ α}
    (h : request ∈ segment barriers late) : request ∈ segment (arrivals early + barriers) (early ++ late) := by
  induction early with
  | nil => rwa [arrivals, List.countP_nil, Nat.zero_add]
  | cons deed rest ih =>
    rw [List.cons_append, arrivals, List.countP_cons]
    cases deed with
    | arrives =>
      show request ∈ segment (arrivals rest + 1 + barriers) (.arrives :: (rest ++ late))
      rw [Nat.add_right_comm]
      exact ih
    | ends =>
      show request ∈ segment (arrivals rest + barriers) (.ends :: (rest ++ late))
      generalize arrivals rest + barriers = place at ih ⊢
      cases place <;> exact ih
    | asks other =>
      show request ∈ segment (arrivals rest + barriers) (.asks other :: (rest ++ late))
      generalize arrivals rest + barriers = place at ih ⊢
      cases place with
      | zero => exact List.mem_cons_of_mem _ ih
      | succ place => exact ih

end Deed

namespace Crew

variable {callbacks : Callbacks σ α} {crew : Crew σ α β} {store : Store α} {lanes : Nat}

/-! ## Logs -/

theorem log_append (callbacks : Callbacks σ α) (crew : Crew σ α β) (store : Store α)
    (early late : List Nat) :
    crew.log callbacks store (early ++ late) = crew.log callbacks store early ++
      (crew.run callbacks store early).1.log callbacks (crew.run callbacks store early).2 late := by
  induction early generalizing crew store with
  | nil => rfl
  | cons lane rest ih =>
    rw [List.cons_append, log, log, List.append_assoc, ih]
    rfl

/-- The slots after a turn hold what its request stores. -/
theorem turn_slots (callbacks : Callbacks σ α) (crew : Crew σ α β) (lane : Nat) (store : Store α)
    (calls : Array Nat) :
    (crew.turn callbacks lane store).1.slots = ((⟨crew.slots, calls⟩ : Sight σ).after
      (Deed.requests ((crew.deed? lane).toList.map fun deed => (lane, deed)))).slots := by
  have hturn := turn_spec callbacks crew lane store
  generalize (crew.turn callbacks lane store).1 = crew' at hturn ⊢
  generalize crew.deed? lane = deed at hturn ⊢
  cases hturn with
  | @asks request _ _ _ _ => exact Request.see_slots_congr request rfl
  | @panics request _ _ _ _ => exact Request.see_slots_congr request rfl
  | _ => rfl

/-- **A run of a block leaves in its slots what its own requests store there.** -/
theorem run_slots (callbacks : Callbacks σ α) (crew : Crew σ α β) (store : Store α) (turns : List Nat)
    (calls : Array Nat) :
    (crew.run callbacks store turns).1.slots = ((⟨crew.slots, calls⟩ : Sight σ).after
      (Deed.requests (crew.log callbacks store turns))).slots := by
  induction turns generalizing crew store calls with
  | nil => rfl
  | cons lane rest ih =>
    have hlog : Deed.requests (crew.log callbacks store (lane :: rest)) =
        Deed.requests ((crew.deed? lane).toList.map fun deed => (lane, deed)) ++
          Deed.requests ((crew.turn callbacks lane store).1.log callbacks
            (crew.turn callbacks lane store).2 rest) :=
      List.filterMap_append
    have hrest := ih (crew.turn callbacks lane store).1 (crew.turn callbacks lane store).2
      ((⟨crew.slots, calls⟩ : Sight σ).after (Deed.requests
        ((crew.deed? lane).toList.map fun deed => (lane, deed)))).calls
    rw [turn_slots callbacks crew lane store calls] at hrest
    rw [hlog, Sight.after_append]
    exact hrest

/-- What a block sees after a run. -/
theorem sight_run (callbacks : Callbacks σ α) (crew : Crew σ α β) (store : Store α) (turns : List Nat) :
    (⟨(crew.run callbacks store turns).1.slots, (crew.run callbacks store turns).2.journal.calls⟩ :
      Sight σ) = (⟨crew.slots, store.journal.calls⟩ : Sight σ).after
        (Deed.requests (crew.log callbacks store turns)) := by
  rw [run_slots callbacks crew store turns store.journal.calls, run_store,
    Store.calls_after callbacks.element crew.slots]

/-- The lanes of a block hold together in its runs. -/
theorem Abreast.run {segment : Nat} {log : List (Nat × Deed σ α)} (h : Abreast lanes segment crew log)
    (callbacks : Callbacks σ α) (store : Store α) (turns : List Nat) :
    ∃ segment', Abreast lanes segment' (crew.run callbacks store turns).1
      (log ++ crew.log callbacks store turns) := by
  induction turns generalizing crew store segment log with
  | nil => exact ⟨segment, by rwa [Crew.log, List.append_nil]⟩
  | cons lane rest ih =>
    obtain ⟨middle, hmiddle⟩ := h.turn (turn_spec callbacks crew lane store)
    obtain ⟨segment', hrest⟩ := ih hmiddle (crew.turn callbacks lane store).2
    rw [List.append_assoc] at hrest
    exact ⟨segment', hrest⟩

/-! ## Peaceful blocks -/

/-- A block whose lanes keep out of each other's way, whatever turns they take. -/
structure Peaceful (callbacks : Callbacks σ α) (lanes : Nat) (crew : Crew σ α β) (store : Store α) :
    Prop where
  calm : ∀ turns, (crew.run callbacks store turns).1.poisoned = false
  together : ∀ turns, ¬ (crew.run callbacks store turns).1.Parted
  apart : ∀ turns, ∀ lane < lanes, ∀ other < lanes, lane ≠ other → ∀ segment,
    ∀ request ∈ Deed.segment segment (own lane (crew.log callbacks store turns)),
    ∀ request' ∈ Deed.segment segment (own other (crew.log callbacks store turns)),
      ¬ request.Clashes callbacks request'

/-- **A peaceful block stays so** behind turns after which all its lanes have passed the same barriers. -/
theorem Peaceful.after (h : crew.Peaceful callbacks lanes store) {turns : List Nat} {barriers : Nat}
    (hcount : ∀ lane < lanes, Deed.arrivals (own lane (crew.log callbacks store turns)) = barriers) :
    (crew.run callbacks store turns).1.Peaceful callbacks lanes (crew.run callbacks store turns).2 := by
  refine ⟨fun more => ?_, fun more => ?_, fun more lane hlane other hother hne segment request hr request' hr' => ?_⟩
  · rw [← run_append]
    exact h.calm (turns ++ more)
  · rw [← run_append]
    exact h.together (turns ++ more)
  · have hlater : ∀ lane < lanes, ∀ request,
        request ∈ Deed.segment segment (own lane ((crew.run callbacks store turns).1.log callbacks
          (crew.run callbacks store turns).2 more)) →
        request ∈ Deed.segment (barriers + segment) (own lane (crew.log callbacks store (turns ++ more))) := by
      intro lane hlane request hr
      rw [log_append, own_append, ← hcount lane hlane]
      exact Deed.mem_segment_append hr
    exact h.apart (turns ++ more) lane hlane other hother hne _ request (hlater lane hlane request hr) request'
      (hlater other hother request' hr')

/-! ## One stage of a block -/

/-- A lane makes the requests of its segment while the others rest. -/
theorem exists_log_segment {lane : Nat} {program : Lane σ α β}
    (hs : crew.stations[lane]? = some (.running program)) (store : Store α) :
    ∃ turns, crew.log callbacks store turns =
        ((program.segment callbacks ⟨crew.slots, store.journal.calls⟩).1.map fun request =>
          (lane, .asks request)) ∧
      ∀ other, other ≠ lane → (crew.run callbacks store turns).1.stations[other]? = crew.stations[other]? := by
  induction program generalizing crew store with
  | done _ => exact ⟨[], rfl, fun _ _ => rfl⟩
  | fault _ => exact ⟨[], rfl, fun _ _ => rfl⟩
  | barrier _ _ => exact ⟨[], rfl, fun _ _ => rfl⟩
  | ask request next ih =>
    have hlane := (List.getElem?_eq_some_iff.mp hs).1
    have hdeed : crew.deed? lane = some (.asks request) := by rw [deed?, hs]; rfl
    have hturn : crew.turn callbacks lane store =
        crew.answered lane next (Machine.perform callbacks request ⟨crew.slots, store⟩) := by
      rw [turn, hs]
    rw [Machine.perform_eq] at hturn
    cases hanswer : request.answer callbacks ⟨crew.slots, store.journal.calls⟩ with
    | error panic =>
      refine ⟨[lane], ?_, fun other hother => ?_⟩
      · rw [Lane.segment_ask_error hanswer, log, hdeed]
        rfl
      · show (crew.turn callbacks lane store).1.stations[other]? = _
        rw [hturn, show request.answer callbacks (⟨crew.slots, store⟩ : Machine σ α).sight = _ from hanswer]
        exact List.getElem?_set_ne (Ne.symm hother)
    | ok answer =>
      rw [show request.answer callbacks (⟨crew.slots, store⟩ : Machine σ α).sight = _ from hanswer] at hturn
      have hnext : (crew.turn callbacks lane store).1.stations[lane]? = some (.running (next answer)) := by
        rw [hturn]
        exact List.getElem?_set_self hlane
      have hsight : (⟨(crew.turn callbacks lane store).1.slots,
          (crew.turn callbacks lane store).2.journal.calls⟩ : Sight σ) =
            request.see ⟨crew.slots, store.journal.calls⟩ := by
        have hrun := sight_run callbacks crew store [lane]
        rw [log, hdeed] at hrun
        exact hrun
      obtain ⟨turns, hlog, hothers⟩ := ih answer hnext (crew.turn callbacks lane store).2
      refine ⟨lane :: turns, ?_, fun other hother => ?_⟩
      · rw [Lane.segment_ask_ok hanswer, log, hdeed, hlog, hsight]
        rfl
      · refine (hothers other hother).trans ?_
        rw [hturn]
        exact List.getElem?_set_ne (Ne.symm hother)

/-- What the first lanes ask in a stage, one lane after the other. -/
def asked (stage : Stage σ α) (count : Nat) : List (Nat × Deed σ α) :=
  (List.range count).flatMap fun lane => (stage lane).map fun request => (lane, .asks request)

theorem asked_succ (stage : Stage σ α) (count : Nat) :
    asked stage (count + 1) = asked stage count ++ (stage count).map fun request => (count, .asks request) := by
  rw [asked, List.range_succ, List.flatMap_append, List.flatMap_singleton]
  rfl

theorem segment_map_asks (requests : List (Request σ α)) :
    Deed.segment 0 (requests.map .asks) = requests := by
  have hall := @Deed.segment_zero_map_asks σ α requests [] rfl
  rwa [List.append_nil] at hall

theorem own_map_asks (lane other : Nat) (requests : List (Request σ α)) :
    own lane (requests.map fun request => (other, Deed.asks request)) =
      if other = lane then requests.map .asks else [] := by
  have hall := own_map_pair lane other (requests.map (Deed.asks : Request σ α → Deed σ α))
  rwa [List.map_map] at hall

theorem own_asked (stage : Stage σ α) (count lane : Nat) :
    own lane (asked stage count) = if lane < count then (stage lane).map .asks else [] := by
  have hall := own_flatMap (List.nodup_range (n := count))
    (fun lane => (stage lane).map (Deed.asks : Request σ α → Deed σ α)) lane
  simp only [List.map_map, Function.comp_def, List.mem_range] at hall
  exact hall

/-- A lane has asked its share in the first segment. -/
theorem segment_own_asked {stage : Stage σ α} {count lane : Nat} (hlane : lane < count) :
    Deed.segment 0 (own lane (asked stage count)) = stage lane := by
  rw [own_asked, if_pos hlane, segment_map_asks]

theorem mem_requests_asked {stage : Stage σ α} {count : Nat} {request : Request σ α} :
    request ∈ Deed.requests (asked stage count) ↔ ∃ lane < count, request ∈ stage lane := by
  rw [Deed.mem_requests]
  simp only [asked, List.mem_flatMap, List.mem_map, List.mem_range, Prod.mk.injEq, Deed.asks.injEq]
  constructor
  · rintro ⟨_, lane, hlane, _, hr, _, rfl⟩
    exact ⟨lane, hlane, hr⟩
  · rintro ⟨lane, hlane, hr⟩
    exact ⟨lane, lane, hlane, request, hr, rfl, rfl⟩

/-- What each lane asks if it is alone. -/
def alone (callbacks : Callbacks σ α) (programs : Nat → Lane σ α β) (sight : Sight σ) : Stage σ α :=
  fun lane => ((programs lane).segment callbacks sight).1

/-- **The lanes of a peaceful block make the requests of a stage**, each as if it were alone. -/
theorem Peaceful.exists_log_stage {slots : Array σ} {programs : Nat → Lane σ α β}
    (h : (start slots ((List.range lanes).map programs)).Peaceful callbacks lanes store) {count : Nat}
    (hcount : count ≤ lanes) :
    ∃ turns, (start slots ((List.range lanes).map programs)).log callbacks store turns =
        asked (alone callbacks programs ⟨slots, store.journal.calls⟩) count ∧
      ∀ other, count ≤ other → ((start slots ((List.range lanes).map programs)).run callbacks store
        turns).1.stations[other]? = (start slots ((List.range lanes).map programs)).stations[other]? := by
  induction count with
  | zero => exact ⟨[], rfl, fun _ _ => rfl⟩
  | succ count ih =>
    obtain ⟨turns, hlog, hothers⟩ := ih (Nat.le_of_succ_le hcount)
    have hs : (start slots ((List.range lanes).map programs)).stations[count]? =
        some (.running (programs count)) := by
      rw [start, List.getElem?_map, List.getElem?_map, List.getElem?_range hcount]
      rfl
    obtain ⟨more, hmore, hrest⟩ := @exists_log_segment σ α β callbacks _ _ _
      ((hothers count (Nat.le_refl _)).trans hs)
      ((start slots ((List.range lanes).map programs)).run callbacks store turns).2
    have hboth := log_append callbacks (start slots ((List.range lanes).map programs)) store turns more
    rw [hmore, sight_run, hlog] at hboth
    -- what the lane sees now is what it would see alone, as nobody has clashed with it
    have hsame : (programs count).segment callbacks ⟨slots, store.journal.calls⟩ =
        (programs count).segment callbacks ((⟨slots, store.journal.calls⟩ : Sight σ).after (Deed.requests
          (asked (alone callbacks programs ⟨slots, store.journal.calls⟩) count))) := by
      refine Lane.segment_congr fun request hr => ?_
      refine Sight.agreeAt_after (fun other hother => ?_) _
      obtain ⟨lane, hlane, hother⟩ := mem_requests_asked.mp hother
      refine h.apart (turns ++ more) lane (by omega) count hcount (Nat.ne_of_lt hlane) 0 other ?_ request ?_
      · rw [hboth, own_append, own_map_asks, if_neg (by omega), List.append_nil, segment_own_asked hlane]
        exact hother
      · rw [hboth, own_append, own_map_asks, if_pos rfl, own_asked, if_neg (Nat.lt_irrefl _), List.nil_append,
          segment_map_asks]
        exact hr
    refine ⟨turns ++ more, ?_, fun other hother => ?_⟩
    · rw [hboth, asked_succ]
      refine congrArg (asked (alone callbacks programs ⟨slots, store.journal.calls⟩) count ++ ·) ?_
      exact congrArg (fun segment => segment.1.map fun request => (count, Deed.asks request)) hsame.symm
    · rw [run_append]
      exact (hrest other (by omega)).trans (hothers other (by omega))

/-- The stage of a peaceful block is without clashes. -/
theorem Peaceful.apart_alone {slots : Array σ} {programs : Nat → Lane σ α β}
    (h : (start slots ((List.range lanes).map programs)).Peaceful callbacks lanes store) :
    (alone callbacks programs ⟨slots, store.journal.calls⟩).Apart callbacks lanes := by
  obtain ⟨turns, hlog, _⟩ := h.exists_log_stage (Nat.le_refl lanes)
  intro lane hlane other hother hne request hr request' hr'
  refine h.apart turns lane hlane other hother hne 0 request ?_ request' ?_
  · rwa [hlog, segment_own_asked hlane]
  · rwa [hlog, segment_own_asked hother]

/-- An induction along the barriers of a program. -/
theorem induction_waiting (callbacks : Callbacks σ α) {P : Lane σ α β → Prop}
    (hstep : ∀ program, (∀ sight requests next,
      program.segment callbacks sight = (requests, .waiting next) → P next) → P program)
    (program : Lane σ α β) : P program := by
  suffices hnext : ∀ sight requests next,
      program.segment callbacks sight = (requests, .waiting next) → P next from hstep program hnext
  induction program with
  | done _ => exact fun _ _ _ h => nomatch h
  | fault _ => exact fun _ _ _ h => nomatch h
  | barrier rest ih =>
    intro _ _ _ h
    cases h
    exact hstep rest ih
  | ask request rest ih =>
    intro sight requests next h
    cases hanswer : request.answer callbacks sight with
    | error panic =>
      rw [Lane.segment_ask_error hanswer] at h
      cases h
    | ok answer =>
      rw [Lane.segment_ask_ok hanswer] at h
      have hstop := congrArg Prod.snd h
      exact ih answer (request.see sight) _ next (Prod.ext rfl hstop)

/-- A complete block is one all of whose lanes have finished. -/
theorem endWell_of_verdict {stops : Nat → Stop σ α β}
    (h : Block.verdict ((List.range lanes).map stops) = .complete) : Block.EndWell lanes stops := by
  intro lane hlane
  have hmem : stops lane ∈ (List.range lanes).map stops := List.mem_map_of_mem (List.mem_range.mpr hlane)
  unfold Block.verdict at h
  cases hpanics : ((List.range lanes).map stops).filterMap Stop.panic? with
  | cons panic rest =>
    simp only [hpanics] at h
    cases hfind : (panic :: rest).find? fun panic => !panic.isRelease <;> rw [hfind] at h <;> cases h
  | nil =>
    have hwell := List.filterMap_eq_nil_iff.mp hpanics (stops lane) hmem
    simp only [hpanics] at h
    by_cases hwaits : ((List.range lanes).map stops).any (fun stop => stop.next?.isSome) = true
    · rw [if_pos hwaits] at h
      cases h
    · have hone := List.any_eq_false.mp (Bool.eq_false_iff.mpr hwaits) (stops lane) hmem
      cases hstop : stops lane with
      | finished result => exact ⟨result, rfl⟩
      | faulted panic =>
        rw [hstop] at hwell
        cases hwell
      | waiting next =>
        rw [hstop] at hone
        exact absurd rfl hone

section Stages

variable {slots : Array σ} {programs : Nat → Lane σ α β}
  (h : (start slots ((List.range lanes).map programs)).Peaceful callbacks lanes store)

include h

/-- A peaceful block at a standstill has come to its end. -/
theorem Peaceful.endWell {turns : List Nat} {crew : Crew σ α β}
    (hrun : ((start slots ((List.range lanes).map programs)).run callbacks store turns).1 = crew)
    (hrests : ∀ lane, crew.Rests lane) {stops : Nat → Stop σ α β}
    (hverdict : crew.outcome = Block.verdict ((List.range lanes).map stops)) :
    Block.EndWell lanes stops := by
  subst hrun
  obtain ⟨segment, habreast⟩ := (abreast_start slots ((List.range lanes).map programs)).run callbacks store turns
  have hover := habreast.isOver_of_rests hrests fun _ => h.together turns
  have hcalm := h.calm turns
  have hnone := habreast.fault_eq_none_iff.mpr fun lane panic hraises =>
    absurd hraises.1 (habreast.calm hcalm lane panic)
  apply endWell_of_verdict
  rw [← hverdict, outcome, if_pos hover, ending, hnone, hcalm]
  rfl

/-- A peaceful block whose barrier has opened goes on as a peaceful block. -/
theorem Peaceful.next {turns : List Nat} {slots' : Array σ} {programs' : Nat → Lane σ α β} {store' : Store α}
    (hrun : (start slots ((List.range lanes).map programs)).run callbacks store turns =
      (start slots' ((List.range lanes).map programs'), store')) :
    (start slots' ((List.range lanes).map programs')).Peaceful callbacks lanes store' := by
  obtain ⟨segment, habreast⟩ := (abreast_start slots ((List.range lanes).map programs)).run callbacks store turns
  have hcount : ∀ lane < lanes, Deed.arrivals (own lane
      ((start slots ((List.range lanes).map programs)).log callbacks store turns)) = segment := by
    intro lane hlane
    have hs : (start slots' ((List.range lanes).map programs')).stations[lane]? =
        some (.running (programs' lane)) := by
      rw [start, List.getElem?_map, List.getElem?_map, List.getElem?_range hlane]
      rfl
    rw [hrun] at habreast
    exact (habreast.stands lane _ hs).arrivals_of_running
  have hafter := h.after hcount
  rwa [hrun] at hafter

end Stages

/-- **A peaceful block has a run in stages**, and all its lanes come to their normal ends. -/
theorem Peaceful.exists_runs (hlanes : 0 < lanes) {slots : Array σ} {programs : Nat → Lane σ α β}
    (h : (start slots ((List.range lanes).map programs)).Peaceful callbacks lanes store) :
    ∃ stages stops, Block.Runs callbacks lanes programs ⟨slots, store.journal.calls⟩ stages stops ∧
      Block.EndWell lanes stops := by
  obtain ⟨first, hfirst⟩ : ∃ first, programs 0 = first := ⟨_, rfl⟩
  induction first using induction_waiting callbacks generalizing slots programs store with
  | hstep first ih =>
    obtain ⟨stops, hsegment⟩ : ∃ stops : Nat → Stop σ α β, ∀ lane < lanes,
        (programs lane).segment callbacks ⟨slots, store.journal.calls⟩ =
          (alone callbacks programs ⟨slots, store.journal.calls⟩ lane, stops lane) :=
      ⟨fun lane => ((programs lane).segment callbacks ⟨slots, store.journal.calls⟩).2, fun _ _ => rfl⟩
    have hadvance := Lane.advanceAll_eq hsegment h.apart_alone (List.range lanes) ⟨slots, store⟩
      List.nodup_range (fun _ hlane => List.mem_range.mp hlane) fun _ _ _ _ => .refl ..
    have hstage := exists_run_of_stage callbacks (Block.map_range_ne_nil hlanes programs) slots store
    rw [hadvance] at hstage
    obtain ⟨turns, crew, hrun, ⟨next, hnext, rfl⟩ | ⟨hshut, hrests, hverdict⟩⟩ := hstage
    · -- all lanes wait, and go on behind the barrier
      obtain ⟨programs', hprograms'⟩ : ∃ programs' : Nat → Lane σ α β, ∀ lane < lanes,
          stops lane = .waiting (programs' lane) := by
        rcases Block.resumable?_eq_or ((List.range lanes).map stops) with ⟨next', _, hall⟩ | ⟨hnone, _⟩
        · refine ⟨fun lane => next'.getD lane first, fun lane hlane => ?_⟩
          have hget := congrArg (·[lane]?) hall
          simp only [List.getElem?_map, List.getElem?_range hlane, Option.map_some] at hget
          cases hentry : next'[lane]? with
          | none =>
            rw [hentry] at hget
            cases hget
          | some entry =>
            rw [hentry] at hget
            show stops lane = .waiting (next'.getD lane first)
            rw [List.getD_eq_getElem?_getD, hentry]
            exact Option.some.inj hget
        · rw [hnext] at hnone
          cases hnone
      have hwaiting : (List.range lanes).map stops =
          (List.range lanes).map fun lane => .waiting (programs' lane) :=
        List.map_congr_left fun lane hlane => hprograms' lane (List.mem_range.mp hlane)
      rw [hwaiting, Block.resumable?_map_waiting] at hnext
      obtain rfl := Option.some.inj hnext
      have hlater := h.next hrun
      have hwaits : ∀ lane < lanes, (programs lane).segment callbacks ⟨slots, store.journal.calls⟩ =
          (alone callbacks programs ⟨slots, store.journal.calls⟩ lane, .waiting (programs' lane)) :=
        fun lane hlane => hprograms' lane hlane ▸ hsegment lane hlane
      obtain ⟨stages, last, hruns, hends⟩ := ih _ _ _ (hfirst ▸ hwaits 0 hlanes) hlater rfl
      rw [Store.calls_after callbacks.element slots] at hruns
      exact ⟨_, last, .pass hwaits h.apart_alone hruns, hends⟩
    · have hends := h.endWell (congrArg Prod.fst hrun) hrests hverdict
      obtain ⟨result, hresult⟩ := hends 0 hlanes
      exact ⟨_, stops, .stop hsegment h.apart_alone ⟨0, hlanes, by rw [hresult]; rfl⟩, hends⟩

end Crew

end BlockMachine
