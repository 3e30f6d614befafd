import BlockMachine.Block
import BlockMachine.Proofs.Lane.History
import BlockMachine.Proofs.Lane.Segment

/-!
# Stages of a block

A stage is what the lanes of a block ask between two barriers.  If no two lanes clash in it, what it
does is the same in every order.

* `Stage.Apart` — no two lanes of a stage clash.
* `Stage.agreeAt_of_history` — in the middle of a stage each lane sees what it would see alone.
* `Stage.after_eq_all` — at the end of a stage the order of the lanes is forgotten.
* `Block.Reaches`, `Block.Runs` — a block passes some barriers; a block runs until it stops for good.
-/

set_option autoImplicit false

namespace BlockMachine

open History

/-- What each lane of a block asks between two barriers. -/
abbrev Stage (σ α : Type) : Type := Nat → List (Request σ α)

namespace Stage

variable {σ α : Type} {callbacks : Callbacks σ α} {lanes : Nat} {stage : Stage σ α}

/-- The requests of a stage, one lane after the other. -/
def all (stage : Stage σ α) (lanes : Nat) : List (Request σ α) := (List.range lanes).flatMap stage

theorem mem_all {request : Request σ α} :
    request ∈ stage.all lanes ↔ ∃ lane < lanes, request ∈ stage lane := by
  simp [all]

/-- A stage in which nobody asks anything. -/
theorem all_nil (lanes : Nat) : all (fun _ => [] : Stage σ α) lanes = [] :=
  List.flatMap_eq_nil_iff.mpr fun _ _ => rfl

/-- No two lanes clash. -/
def Apart (callbacks : Callbacks σ α) (lanes : Nat) (stage : Stage σ α) : Prop :=
  ∀ i < lanes, ∀ j < lanes, i ≠ j →
    ∀ request ∈ stage i, ∀ other ∈ stage j, ¬ request.Clashes callbacks other

/-- Whether the answers for an item are counted and some lane asks for it. -/
def Asked (callbacks : Callbacks σ α) (lanes : Nat) (stages : List (Stage σ α)) (index : Nat) : Prop :=
  callbacks.Counts index ∧
    ∃ stage ∈ stages, ∃ request ∈ stage.all lanes, request.item? = some index

/-- Lanes that write no slot and ask for no item do not clash. -/
theorem apart_of_quiet
    (h : ∀ lane < lanes, ∀ request ∈ stage lane, request.stored? = none ∧ request.item? = none) :
    stage.Apart callbacks lanes := by
  intro i hi j hj _ request hr other ho hclash
  rcases hclash with ⟨slot, hs, _⟩ | ⟨slot, hs, _⟩ | ⟨index, hs, _⟩
  · rw [(h i hi request hr).1] at hs; cases hs
  · rw [(h j hj other ho).1] at hs; cases hs
  · rw [(h i hi request hr).2] at hs; cases hs

/-- **In the middle of a stage each lane sees what it would see alone.** -/
theorem agreeAt_of_history (apart : stage.Apart callbacks lanes)
    {history : List (Nat × Request σ α)}
    (hmem : ∀ entry ∈ history, entry.1 < lanes ∧ entry.2 ∈ stage entry.1) {lane : Nat}
    (hlane : lane < lanes) {request : Request σ α} (hr : request ∈ stage lane) (sight : Sight σ) :
    Sight.AgreeAt callbacks request (sight.after (history.map Prod.snd))
      (sight.after (own lane history)) := by
  apply Sight.agreeAt_after_own _ (.refl ..)
  intro entry hentry hne
  obtain ⟨hlt, he⟩ := hmem entry hentry
  exact apart entry.1 hlt lane hlane hne entry.2 he request hr

/-- A stage as a history in which the lanes come one after the other. -/
def inOrder (stage : Stage σ α) (lanes : Nat) : List (Nat × Request σ α) :=
  (List.range lanes).flatMap fun lane => (stage lane).map fun request => (lane, request)

theorem map_snd_inOrder : (stage.inOrder lanes).map Prod.snd = stage.all lanes := by
  simp only [inOrder, all, List.map_flatMap, List.map_map, Function.comp_def, List.map_id']

theorem own_inOrder {lane : Nat} (hlane : lane < lanes) :
    own lane (stage.inOrder lanes) = stage lane := by
  rw [inOrder, own_flatMap List.nodup_range, if_pos (List.mem_range.mpr hlane)]

theorem mem_inOrder {entry : Nat × Request σ α} (h : entry ∈ stage.inOrder lanes) :
    entry.1 < lanes ∧ entry.2 ∈ stage entry.1 := by
  simp only [inOrder, List.mem_flatMap, List.mem_map, List.mem_range] at h
  obtain ⟨lane, hlane, request, hr, rfl⟩ := h
  exact ⟨hlane, hr⟩

/-- **A slot that one lane uses holds at the end of a stage what that lane leaves in it.** -/
theorem slot_after_all (apart : stage.Apart callbacks lanes) {lane : Nat} (hlane : lane < lanes)
    {request : Request σ α} (hr : request ∈ stage lane) {slot : Nat}
    (hslot : request.slot? = some slot) (sight : Sight σ) :
    (sight.after (stage.all lanes)).slots[slot]? = (sight.after (stage lane)).slots[slot]? := by
  have h := (agreeAt_of_history apart (fun _ => mem_inOrder) hlane hr sight).slot slot hslot
  rwa [map_snd_inOrder, own_inOrder hlane] at h

section Whole

variable {history : List (Nat × Request σ α)}

theorem mem_of_own_eq (hlt : ∀ entry ∈ history, entry.1 < lanes)
    (hown : ∀ lane < lanes, own lane history = stage lane) :
    ∀ entry ∈ history, entry.1 < lanes ∧ entry.2 ∈ stage entry.1 := by
  intro entry hentry
  have hlane := hlt entry hentry
  refine ⟨hlane, ?_⟩
  rw [← hown entry.1 hlane]
  exact mem_own.mpr hentry

/-- A history in which every lane has done its stage has the requests of the stage. -/
theorem perm_all (hlt : ∀ entry ∈ history, entry.1 < lanes)
    (hown : ∀ lane < lanes, own lane history = stage lane) :
    (history.map Prod.snd).Perm (stage.all lanes) := by
  have h := perm_flatMap_own List.nodup_range fun entry hentry =>
    List.mem_range.mpr (hlt entry hentry)
  have hsame : ((List.range lanes).flatMap fun lane => own lane history) = stage.all lanes :=
    List.flatMap_congr fun lane hlane => hown lane (List.mem_range.mp hlane)
  rwa [hsame] at h

/-- **At the end of a stage the order of the lanes is forgotten.** -/
theorem after_eq_all (apart : stage.Apart callbacks lanes)
    (hlt : ∀ entry ∈ history, entry.1 < lanes)
    (hown : ∀ lane < lanes, own lane history = stage lane) (sight : Sight σ) :
    sight.after (history.map Prod.snd) = sight.after (stage.all lanes) := by
  have hmem := mem_of_own_eq hlt hown
  have hperm := perm_all hlt hown
  have hcalls := Sight.calls_after_perm hperm sight
  have hslots : (sight.after (history.map Prod.snd)).slots =
      (sight.after (stage.all lanes)).slots := by
    apply Array.ext_getElem?
    intro slot
    -- either one lane writes the slot, and the others keep off it, or nobody does
    by_cases hstored : ∃ lane < lanes, ∃ request ∈ stage lane, request.stored? = some slot
    · obtain ⟨lane, hlane, request, hr, hs⟩ := hstored
      have hslot := Request.slot?_of_stored? hs
      have hleft := (agreeAt_of_history apart hmem hlane hr sight).slot slot hslot
      rw [hleft, slot_after_all apart hlane hr hslot, hown lane hlane]
    · have hall : ∀ request ∈ stage.all lanes, request.stored? ≠ some slot := by
        intro request hr hs
        obtain ⟨lane, hlane, hr⟩ := mem_all.mp hr
        exact hstored ⟨lane, hlane, request, hr, hs⟩
      have hhistory : ∀ request ∈ history.map Prod.snd, request.stored? ≠ some slot :=
        fun request hr => hall request (hperm.mem_iff.mp hr)
      rw [Sight.slot_after_of_not_stored hall, Sight.slot_after_of_not_stored hhistory]
  exact congrArg₂ Sight.mk hslots hcalls

end Whole

end Stage

namespace Block

variable {σ α β γ : Type}

/-- The lanes pass some barriers together, in stages without clashes. -/
inductive Reaches (callbacks : Callbacks σ α) (lanes : Nat) :
    (Nat → Lane σ α β) → Sight σ → List (Stage σ α) → (Nat → Lane σ α β) → Sight σ → Prop
  | here (programs : Nat → Lane σ α β) (sight : Sight σ) :
      Reaches callbacks lanes programs sight [] programs sight
  | pass {programs next rest : Nat → Lane σ α β} {sight last : Sight σ} {stage : Stage σ α}
      {stages : List (Stage σ α)}
      (segment : ∀ lane < lanes,
        (programs lane).segment callbacks sight = (stage lane, .waiting (next lane)))
      (apart : stage.Apart callbacks lanes)
      (later : Reaches callbacks lanes next (sight.after (stage.all lanes)) stages rest last) :
      Reaches callbacks lanes programs sight (stage :: stages) rest last

/-- The lanes run until not all of them wait at a barrier, in stages without clashes. -/
inductive Runs (callbacks : Callbacks σ α) (lanes : Nat) :
    (Nat → Lane σ α β) → Sight σ → List (Stage σ α) → (Nat → Stop σ α β) → Prop
  | stop {programs : Nat → Lane σ α β} {sight : Sight σ} {stage : Stage σ α}
      {stops : Nat → Stop σ α β}
      (segment : ∀ lane < lanes,
        (programs lane).segment callbacks sight = (stage lane, stops lane))
      (apart : stage.Apart callbacks lanes)
      (halts : ∃ lane < lanes, (stops lane).next? = none) :
      Runs callbacks lanes programs sight [stage] stops
  | pass {programs next : Nat → Lane σ α β} {sight : Sight σ} {stage : Stage σ α}
      {stages : List (Stage σ α)} {stops : Nat → Stop σ α β}
      (segment : ∀ lane < lanes,
        (programs lane).segment callbacks sight = (stage lane, .waiting (next lane)))
      (apart : stage.Apart callbacks lanes)
      (later : Runs callbacks lanes next (sight.after (stage.all lanes)) stages stops) :
      Runs callbacks lanes programs sight (stage :: stages) stops

/-- Whether every lane comes to its normal end. -/
def EndWell (lanes : Nat) (stops : Nat → Stop σ α β) : Prop :=
  ∀ lane < lanes, ∃ result, stops lane = .finished result

variable {callbacks : Callbacks σ α} {lanes : Nat}

theorem Reaches.trans {first second third : Nat → Lane σ α β} {a b c : Sight σ}
    {stages later : List (Stage σ α)} (h : Reaches callbacks lanes first a stages second b)
    (h' : Reaches callbacks lanes second b later third c) :
    Reaches callbacks lanes first a (stages ++ later) third c := by
  induction h with
  | here _ _ => exact h'
  | pass segment apart _ ih => exact .pass segment apart (ih h')

theorem Reaches.runs {first second : Nat → Lane σ α β} {a b : Sight σ}
    {stages later : List (Stage σ α)} {stops : Nat → Stop σ α β}
    (h : Reaches callbacks lanes first a stages second b)
    (h' : Runs callbacks lanes second b later stops) :
    Runs callbacks lanes first a (stages ++ later) stops := by
  induction h with
  | here _ _ => exact h'
  | pass segment apart _ ih => exact .pass segment apart (ih h')

/-- Lanes that have come to their normal end. -/
theorem Reaches.runs_done {programs : Nat → Lane σ α β} {a b : Sight σ} {stages : List (Stage σ α)}
    {result : β} (h : Reaches callbacks lanes programs a stages (fun _ => .done result) b)
    (hlanes : 0 < lanes) :
    Runs callbacks lanes programs a (stages ++ [fun _ => []]) (fun _ => .finished result) := by
  refine h.runs (.stop (fun lane _ => rfl) ?_ ⟨0, hlanes, rfl⟩)
  exact Stage.apart_of_quiet fun _ _ _ hr => absurd hr List.not_mem_nil

theorem segment_bind_waiting {program next : Lane σ α β} {sight : Sight σ}
    {requests : List (Request σ α)}
    (h : program.segment callbacks sight = (requests, .waiting next)) (f : β → Lane σ α γ) :
    (program >>= f).segment callbacks sight = (requests, .waiting (next >>= f)) := by
  induction program generalizing sight requests with
  | done _ => cases h
  | fault _ => cases h
  | barrier _ _ => cases h; rfl
  | ask request rest ih =>
    rw [Lane.ask_bind]
    cases ha : request.answer callbacks sight with
    | error panic =>
      rw [Lane.segment_ask_error ha] at h
      cases h
    | ok answer =>
      rw [Lane.segment_ask_ok ha] at h
      cases hs : (rest answer).segment callbacks (request.see sight) with
      | mk requests' stop =>
        rw [hs] at h
        cases h
        rw [Lane.segment_ask_ok ha, ih answer hs]

/-- What is put behind the programs of the lanes waits until they come to it. -/
theorem Reaches.bind {first second : Nat → Lane σ α β} {a b : Sight σ} {stages : List (Stage σ α)}
    (h : Reaches callbacks lanes first a stages second b) (f : Nat → β → Lane σ α γ) :
    Reaches callbacks lanes (fun lane => first lane >>= f lane) a stages
      (fun lane => second lane >>= f lane) b := by
  induction h with
  | here _ _ => exact .here ..
  | pass segment apart _ ih =>
    exact .pass (fun lane hlane => segment_bind_waiting (segment lane hlane) (f lane)) apart ih

/-- One program for each lane to its end, and then another one. -/
theorem Reaches.seq {first : Nat → Lane σ α β} {result : Nat → β} {rest : Nat → Lane σ α γ}
    {f : Nat → β → Lane σ α γ} {a b c : Sight σ} {stages later : List (Stage σ α)}
    (h : Reaches callbacks lanes first a stages (fun lane => .done (result lane)) b)
    (h' : Reaches callbacks lanes (fun lane => f lane (result lane)) b later rest c) :
    Reaches callbacks lanes (fun lane => first lane >>= f lane) a (stages ++ later) rest c :=
  (h.bind f).trans h'

/-- What is to be seen at the end follows from the requests. -/
theorem Reaches.last_eq {first second : Nat → Lane σ α β} {a b : Sight σ}
    {stages : List (Stage σ α)} (h : Reaches callbacks lanes first a stages second b) :
    b = a.after (stages.flatMap fun stage => stage.all lanes) := by
  induction h with
  | here _ _ => rfl
  | pass _ _ _ ih => rw [ih, List.flatMap_cons, Sight.after_append]

theorem Runs.lanes_pos {programs : Nat → Lane σ α β} {sight : Sight σ} {stages : List (Stage σ α)}
    {stops : Nat → Stop σ α β} (h : Runs callbacks lanes programs sight stages stops) :
    0 < lanes := by
  induction h with
  | stop _ _ halts =>
    obtain ⟨lane, hlane, _⟩ := halts
    exact Nat.zero_lt_of_lt hlane
  | pass _ _ _ ih => exact ih

/-- The stages of a run are without clashes. -/
theorem Runs.apart {programs : Nat → Lane σ α β} {sight : Sight σ} {stages : List (Stage σ α)}
    {stops : Nat → Stop σ α β} (h : Runs callbacks lanes programs sight stages stops) :
    ∀ stage ∈ stages, stage.Apart callbacks lanes := by
  induction h with
  | stop _ apart _ =>
    intro stage hstage
    rw [List.mem_singleton.mp hstage]
    exact apart
  | pass _ apart _ ih =>
    intro stage hstage
    rcases List.mem_cons.mp hstage with rfl | hstage
    · exact apart
    · exact ih stage hstage

theorem segment_of_agree {program : Lane σ α β} {a b : Sight σ} {requests : List (Request σ α)}
    {stop : Stop σ α β} (h : program.segment callbacks a = (requests, stop))
    (agree : ∀ request ∈ requests, Sight.AgreeAt callbacks request a b) :
    program.segment callbacks b = (requests, stop) := by
  rw [← h]
  apply Lane.segment_congr
  rw [h]
  exact agree

/-- A run hangs only on what its own requests see. -/
theorem Runs.transport {programs : Nat → Lane σ α β} {a b : Sight σ} {stages : List (Stage σ α)}
    {stops : Nat → Stop σ α β} (h : Runs callbacks lanes programs a stages stops)
    (agree : ∀ stage ∈ stages, ∀ request ∈ stage.all lanes,
      Sight.AgreeAt callbacks request a b) :
    Runs callbacks lanes programs b stages stops := by
  induction h generalizing b with
  | stop segment apart halts =>
    refine .stop (fun lane hlane => ?_) apart halts
    apply segment_of_agree (segment lane hlane)
    exact fun request hr => agree _ List.mem_cons_self request (Stage.mem_all.mpr ⟨lane, hlane, hr⟩)
  | pass segment apart _ ih =>
    refine .pass (fun lane hlane => ?_) apart (ih fun stage hstage request hr => ?_)
    · apply segment_of_agree (segment lane hlane)
      exact fun request hr => agree _ List.mem_cons_self request (Stage.mem_all.mpr ⟨lane, hlane, hr⟩)
    · exact (agree stage (List.mem_cons_of_mem _ hstage) request hr).after _

/-- How the lanes of a stage end, if some of them may be blocked. -/
theorem exists_stops {programs rest : Nat → Lane σ α β} {sight : Sight σ} {stage : Stage σ α}
    {blocked : Nat → Prop} {usual : Nat → Stop σ α β}
    (h : ∀ lane < lanes,
      Lane.AsksUnless callbacks (blocked lane) (programs lane) sight (stage lane) (rest lane))
    (hrest : ∀ lane sight, (rest lane).segment callbacks sight = ([], usual lane)) :
    ∃ stops : Nat → Stop σ α β,
      (∀ lane < lanes, (programs lane).segment callbacks sight = (stage lane, stops lane)) ∧
      (∀ lane < lanes, ¬ blocked lane → stops lane = usual lane) ∧
      ∀ lane < lanes, blocked lane → ∃ panic, stops lane = .faulted panic ∧ panic.isRelease = false := by
  have hall : ∀ lane, ∃ ending : Stop σ α β, lane < lanes →
      (programs lane).segment callbacks sight = (stage lane, ending) ∧
      (¬ blocked lane → ending = usual lane) ∧
      (blocked lane → ∃ panic, ending = .faulted panic ∧ panic.isRelease = false) := by
    intro lane
    by_cases hlane : lane < lanes
    · obtain ⟨ending, hends⟩ := (h lane hlane).exists_segment (hrest lane)
      exact ⟨ending, fun _ => hends⟩
    · exact ⟨usual lane, fun hlt => absurd hlt hlane⟩
  choose stops hstops using hall
  exact ⟨stops, fun lane hlane => (hstops lane hlane).1, fun lane hlane => (hstops lane hlane).2.1,
    fun lane hlane => (hstops lane hlane).2.2⟩

/-- One stage that all lanes end at a barrier. -/
theorem Reaches.one {first second : Nat → Lane σ α β} {sight : Sight σ} {stage : Stage σ α}
    (segment : ∀ lane < lanes,
      (first lane).segment callbacks sight = (stage lane, .waiting (second lane)))
    (apart : stage.Apart callbacks lanes) :
    Reaches callbacks lanes first sight [stage] second (sight.after (stage.all lanes)) :=
  .pass segment apart (.here ..)

end Block

end BlockMachine
