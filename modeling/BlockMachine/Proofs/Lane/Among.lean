import BlockMachine.Lane.Solo
import BlockMachine.Proofs.Block.Run
import BlockMachine.Proofs.Interleaving.Panics

/-!
# A lane among others

A lane of a block meets the others at its barriers, and what they have stored by then may be anything.  So it is
followed from one barrier to the next, and finds other slots behind each of them.

* `Lane.logAmong` — what a lane does that runs among others.
* `Surroundings` — what such a lane finds: the slots as they are, and what the others are going to store.
* `Lane.Passes` — it passes some barriers, and asks something before each of them; this composes along `>>=`.
* `Lane.Passes.among_eq` — what is seen of it by then, what it has done, and how it goes on.
* `Lane.behind_seenAlong`, `Lane.segment_deedsAlong` — the slots behind each barrier, and the requests between
  two of them.
-/

set_option autoImplicit false

namespace BlockMachine

variable {σ α β γ : Type}

deriving instance DecidableEq for Request

deriving instance DecidableEq for Deed

/-! ## What is seen of a lane -/

namespace LaneEvent

/-- The arguments and the result of an application. -/
def application? : LaneEvent σ → Option (σ × σ × σ)
  | combined left right result => some (left, right, result)
  | passed _ => none

/-- The slots behind a barrier. -/
def slots? : LaneEvent σ → Option (Array σ)
  | combined _ _ _ => none
  | passed slots => some slots

/-- The slots behind a number of barriers; behind none of them they are those at the beginning. -/
def behind (slots : Array σ) (events : List (LaneEvent σ)) (barriers : Nat) : Option (Array σ) :=
  (slots :: events.filterMap slots?)[barriers]?

end LaneEvent

namespace Request

/-- What is seen of a request that is answered. -/
def event? (callbacks : Callbacks σ α) : Request σ α → Option (LaneEvent σ)
  | combine left right =>
    match callbacks.combine left right with
    | .ok result => some (.combined left right result)
    | .error _ => none
  | _ => none

theorem slots?_of_event? {callbacks : Callbacks σ α} {request : Request σ α} {event : LaneEvent σ}
    (h : request.event? callbacks = some event) : event.slots? = none := by
  cases request with
  | combine left right =>
    rw [event?] at h
    split at h
    · rw [← Option.some.inj h]
      rfl
    · cases h
  | _ => cases h

end Request

namespace Lane

theorem eventOf_eq {callbacks : Callbacks σ α} {request : Request σ α} {sight : Sight σ}
    {answer : request.Answer} (h : request.answer callbacks sight = .ok answer) :
    eventOf request answer = request.event? callbacks := by
  cases request with
  | combine left right =>
    have hcombine : callbacks.combine left right = .ok answer := h
    rw [Request.event?, hcombine]
    rfl
  | _ => rfl

/-- What a lane does that runs among others to its end. -/
def logAmong (callbacks : Callbacks σ α) :
    Lane σ α β → List (List (Nat × σ)) → Machine σ α → List (Deed σ α)
  | done _, _, _ => [.ends]
  | fault _, _, _ => [.ends]
  | barrier next, groups, machine =>
    .arrives ::
      match storeAll machine.slots (groups.headD []) with
      | (some _, _) => []
      | (none, slots) => logAmong callbacks next groups.tail { machine with slots := slots }
  | ask request next, groups, machine =>
    .asks request ::
      match machine.perform callbacks request with
      | (.error _, _) => []
      | (.ok answer, machine) => logAmong callbacks (next answer) groups machine

/-- The slots after some requests of a lane. -/
def slotsAfter (slots : Array σ) (requests : List (Request σ α)) : Array σ :=
  (Sight.after ⟨slots, #[]⟩ requests).slots

theorem slots_after (sight : Sight σ) (requests : List (Request σ α)) :
    (sight.after requests).slots = slotsAfter sight.slots requests := by
  have hcongr : ∀ a b : Sight σ, a.slots = b.slots → (a.after requests).slots = (b.after requests).slots := by
    induction requests with
    | nil => exact fun _ _ h => h
    | cons request rest ih => exact fun _ _ h => ih _ _ (request.see_slots_congr h)
  exact hcongr _ _ rfl

/-! ## The stores of the others -/

/-- What the others store at a barrier, as requests of theirs. -/
def storesOf (group : List (Nat × σ)) : List (Request σ α) :=
  group.map fun entry => .store entry.1 entry.2

theorem item?_of_mem_storesOf {group : List (Nat × σ)} {request : Request σ α}
    (h : request ∈ storesOf group) : request.item? = none := by
  obtain ⟨_, _, rfl⟩ := List.mem_map.mp h
  rfl

/-- Stores to slots that are there do not panic. -/
theorem storeAll_eq {group : List (Nat × σ)} {sight : Sight σ}
    (h : ∀ entry ∈ group, entry.1 < sight.slots.size) :
    storeAll sight.slots group = (none, (sight.after (storesOf group : List (Request σ α))).slots) := by
  induction group generalizing sight with
  | nil => rfl
  | cons entry rest ih =>
    obtain ⟨slot, value⟩ := entry
    have hslot : slot < sight.slots.size := h _ List.mem_cons_self
    rw [storeAll, Slots.store, if_pos hslot]
    have hrest : ∀ other ∈ rest,
        other.1 < (Request.see (.store slot value : Request σ α) sight).slots.size := by
      intro other hother
      rw [Request.size_see]
      exact h other (List.mem_cons_of_mem _ hother)
    exact ih hrest

/-- A slot to which the others do not store keeps its value, -/
theorem slot_after_storesOf_of_not_mem {group : List (Nat × σ)} {slot : Nat}
    (h : ∀ value, (slot, value) ∉ group) (sight : Sight σ) :
    (sight.after (storesOf group : List (Request σ α))).slots[slot]? = sight.slots[slot]? := by
  apply Sight.slot_after_of_not_stored
  intro request hr hstored
  obtain ⟨⟨place, value⟩, hmem, rfl⟩ := List.mem_map.mp hr
  obtain rfl : place = slot := Option.some.inj hstored
  exact h value hmem

/-- and one to which they store one value holds it afterwards. -/
theorem slot_after_storesOf_of_mem {group : List (Nat × σ)} {slot : Nat} {value : σ}
    (hmem : (slot, value) ∈ group) (honly : ∀ other, (slot, other) ∈ group → other = value)
    {sight : Sight σ} (hslot : slot < sight.slots.size) :
    (sight.after (storesOf group : List (Request σ α))).slots[slot]? = some value := by
  induction group generalizing sight with
  | nil => cases hmem
  | cons entry rest ih =>
    by_cases hrest : ∃ other, (slot, other) ∈ rest
    · obtain ⟨other, hother⟩ := hrest
      obtain rfl := honly other (List.mem_cons_of_mem _ hother)
      exact ih hother (fun later hlater => honly later (List.mem_cons_of_mem _ hlater))
        (by rw [Request.size_see]; exact hslot)
    · -- the first store is the only one to this slot
      obtain rfl := (List.mem_cons.mp hmem).resolve_right fun hlater => hrest ⟨value, hlater⟩
      refine (slot_after_storesOf_of_not_mem (fun other hother => hrest ⟨other, hother⟩) _).trans ?_
      simp only [Request.see, Array.getElem?_setIfInBounds_self_of_lt hslot]

end Lane

/-! ## From barrier to barrier -/

/-- What a lane among others finds. -/
structure Surroundings (σ : Type) where
  /-- What is to be seen now. -/
  sight : Sight σ
  /-- What the others store at the next barriers. -/
  groups : List (List (Nat × σ))

namespace Surroundings

/-- What a lane finds at first. -/
def start (machine : Machine σ α) (groups : List (List (Nat × σ))) : Surroundings σ :=
  ⟨machine.sight, groups⟩

/-- What a lane finds behind the next barrier, once it has asked something. -/
def pass (around : Surroundings σ) (requests : List (Request σ α)) : Surroundings σ :=
  ⟨(around.sight.after requests).after (Lane.storesOf (around.groups.headD []) : List (Request σ α)),
    around.groups.tail⟩

/-- What a lane finds behind some barriers, before each of which it has asked something. -/
def along (around : Surroundings σ) (segments : List (List (Request σ α))) : Surroundings σ :=
  segments.foldl pass around

theorem along_cons (around : Surroundings σ) (requests : List (Request σ α))
    (segments : List (List (Request σ α))) :
    around.along (requests :: segments) = (around.pass requests).along segments := rfl

@[simp] theorem size_pass (around : Surroundings σ) (requests : List (Request σ α)) :
    (around.pass requests).sight.slots.size = around.sight.slots.size := by
  rw [pass, Sight.size_after, Sight.size_after]

/-- What the others store at a later barrier. -/
theorem getD_groups_pass (around : Surroundings σ) (requests : List (Request σ α)) (barrier : Nat) :
    (around.pass requests).groups[barrier]?.getD [] = around.groups[barrier + 1]?.getD [] := by
  obtain ⟨sight, groups⟩ := around
  cases groups <;> rfl

theorem headD_groups (around : Surroundings σ) : around.groups.headD [] = around.groups[0]?.getD [] := by
  obtain ⟨sight, groups⟩ := around
  cases groups <;> rfl

/-- A slot to which the others do not store at the next barrier is as the lane leaves it, -/
theorem slot_pass_of_not_mem {around : Surroundings σ} {slot : Nat}
    (h : ∀ value, (slot, value) ∉ around.groups[0]?.getD []) (requests : List (Request σ α)) :
    (around.pass requests).sight.slots[slot]? = (around.sight.after requests).slots[slot]? := by
  rw [← headD_groups] at h
  exact Lane.slot_after_storesOf_of_not_mem h _

/-- and one to which they store one value holds it. -/
theorem slot_pass_of_mem {around : Surroundings σ} {slot : Nat} {value : σ}
    (hmem : (slot, value) ∈ around.groups[0]?.getD [])
    (honly : ∀ other, (slot, other) ∈ around.groups[0]?.getD [] → other = value)
    (hslot : slot < around.sight.slots.size) (requests : List (Request σ α)) :
    (around.pass requests).sight.slots[slot]? = some value := by
  rw [← headD_groups] at hmem honly
  exact Lane.slot_after_storesOf_of_mem hmem honly (by rw [Sight.size_after]; exact hslot)

/-- A lane that asks for no item leaves the calls as they are. -/
theorem calls_pass {requests : List (Request σ α)} (h : ∀ request ∈ requests, request.item? = none)
    (around : Surroundings σ) : (around.pass requests).sight.calls = around.sight.calls := by
  rw [pass, Sight.calls_after_of_no_item (fun _ => Lane.item?_of_mem_storesOf),
    Sight.calls_after_of_no_item h]

end Surroundings

namespace Lane

variable {callbacks : Callbacks σ α}

/-- A lane among others passes some barriers, before each of which it asks something.  The others store to slots
that are there. -/
inductive Passes (callbacks : Callbacks σ α) :
    Lane σ α β → Surroundings σ → List (List (Request σ α)) → Lane σ α β → Prop
  | here (program : Lane σ α β) (around : Surroundings σ) : Passes callbacks program around [] program
  | pass {program next rest : Lane σ α β} {around : Surroundings σ} {requests : List (Request σ α)}
      {segments : List (List (Request σ α))}
      (segment : program.segment callbacks around.sight = (requests, .waiting next))
      (inside : ∀ entry ∈ around.groups.headD [], entry.1 < around.sight.slots.size)
      (later : Passes callbacks next (around.pass requests) segments rest) :
      Passes callbacks program around (requests :: segments) rest

section Passes

variable {program rest : Lane σ α β} {around : Surroundings σ} {segments later : List (List (Request σ α))}

theorem Passes.trans {third : Lane σ α β} (h : Passes callbacks program around segments rest)
    (h' : Passes callbacks rest (around.along segments) later third) :
    Passes callbacks program around (segments ++ later) third := by
  induction h with
  | here _ _ => exact h'
  | pass segment inside _ ih => exact .pass segment inside (ih h')

theorem Passes.bind (h : Passes callbacks program around segments rest) (f : β → Lane σ α γ) :
    Passes callbacks (program >>= f) around segments (rest >>= f) := by
  induction h with
  | here _ _ => exact .here ..
  | pass segment inside _ ih => exact .pass (Block.segment_bind_waiting segment f) inside ih

/-- One program to its end, and then another one. -/
theorem Passes.seq {result : β} {f : β → Lane σ α γ} {third : Lane σ α γ}
    (h : Passes callbacks program around segments (done result))
    (h' : Passes callbacks (f result) (around.along segments) later third) :
    Passes callbacks (program >>= f) around (segments ++ later) third :=
  (h.bind f).trans h'

end Passes

/-! ## Running among others -/

/-- What is seen of a lane that passes some barriers. -/
def seenAlong (callbacks : Callbacks σ α) :
    Surroundings σ → List (List (Request σ α)) → List (LaneEvent σ)
  | _, [] => []
  | around, requests :: segments =>
    requests.filterMap (Request.event? callbacks) ++
      .passed (around.pass requests).sight.slots :: seenAlong callbacks (around.pass requests) segments

/-- What a lane does that passes some barriers. -/
def deedsAlong (segments : List (List (Request σ α))) : List (Deed σ α) :=
  segments.flatMap fun requests => requests.map .asks ++ [.arrives]

section Run

variable {program next rest : Lane σ α β} {machine : Machine σ α} {groups : List (List (Nat × σ))}
  {requests : List (Request σ α)} {slots : Array σ} {around : Surroundings σ}
  {segments : List (List (Request σ α))}

/-- A lane among others does a segment, passes a barrier, and goes on behind it. -/
theorem among_of_segment (h : program.segment callbacks machine.sight = (requests, .waiting next))
    (hstores : storeAll (machine.sight.after requests).slots (groups.headD []) = (none, slots)) :
    let reached : Machine σ α := ⟨slots, machine.store.after callbacks.element requests⟩
    program.runAmong callbacks groups machine =
        (requests.filterMap (Request.event? callbacks) ++
            .passed slots :: (next.runAmong callbacks groups.tail reached).1,
          (next.runAmong callbacks groups.tail reached).2) ∧
      program.logAmong callbacks groups machine =
        requests.map .asks ++ .arrives :: next.logAmong callbacks groups.tail reached := by
  induction program generalizing machine requests with
  | done _ => cases h
  | fault _ => cases h
  | barrier next _ =>
    cases h
    have hstores : storeAll machine.slots (groups.headD []) = (none, slots) := hstores
    simp only [runAmong, logAmong, hstores]
    exact ⟨rfl, rfl⟩
  | ask request later ih =>
    cases ha : request.answer callbacks machine.sight with
    | error panic =>
      rw [segment_ask_error ha] at h
      cases h
    | ok answer =>
      rw [segment_ask_ok ha] at h
      obtain ⟨rfl, hends⟩ := Prod.mk.inj h
      have hsight : (⟨(request.see machine.sight).slots, request.leave callbacks.element machine.store⟩ :
          Machine σ α).sight = request.see machine.sight :=
        Machine.sight_after callbacks.element machine [request]
      obtain ⟨hrun, hlog⟩ := ih answer (by rw [hsight]; exact Prod.ext rfl hends)
        (by rw [hsight]; exact hstores)
      simp only [runAmong, logAmong, Machine.perform_eq, ha, eventOf_eq ha]
      rw [hrun, hlog]
      refine ⟨?_, rfl⟩
      rw [List.filterMap_cons]
      cases request.event? callbacks <;> rfl

/-- What is to be seen of the machine behind a barrier. -/
theorem sight_pass (element : Element α) (hsight : machine.sight = around.sight)
    (requests : List (Request σ α)) :
    (⟨(around.pass requests).sight.slots, machine.store.after element requests⟩ : Machine σ α).sight =
      (around.pass requests).sight := by
  have hcalls := Store.calls_after element machine.slots machine.store requests
  have hothers : (around.pass requests).sight.calls = (around.sight.after requests).calls :=
    Sight.calls_after_of_no_item (fun _ => item?_of_mem_storesOf) _
  rw [← hsight] at hothers
  exact congrArg (Sight.mk _) (hcalls.trans hothers.symm)

/-- **A lane that passes some barriers among others**: what is seen of it and what it has done by then, and how it
goes on. -/
theorem Passes.among_eq (h : Passes callbacks program around segments rest)
    (hsight : machine.sight = around.sight) :
    let reached : Machine σ α := ⟨(around.along segments).sight.slots,
      machine.store.after callbacks.element segments.flatten⟩
    program.runAmong callbacks around.groups machine =
        (seenAlong callbacks around segments ++
            (rest.runAmong callbacks (around.along segments).groups reached).1,
          (rest.runAmong callbacks (around.along segments).groups reached).2) ∧
      program.logAmong callbacks around.groups machine =
        deedsAlong segments ++ rest.logAmong callbacks (around.along segments).groups reached := by
  induction h generalizing machine with
  | here program around =>
    obtain ⟨slots, store⟩ := machine
    obtain rfl : slots = around.sight.slots := congrArg Sight.slots hsight
    exact ⟨rfl, rfl⟩
  | @pass program next rest around requests segments segment inside _ ih =>
    have hstores : storeAll (machine.sight.after requests).slots (around.groups.headD []) =
        (none, (around.pass requests).sight.slots) := by
      rw [hsight]
      exact storeAll_eq fun entry hentry => by rw [Sight.size_after]; exact inside entry hentry
    rw [← hsight] at segment
    obtain ⟨hrun, hlog⟩ := among_of_segment segment hstores
    obtain ⟨hrun', hlog'⟩ := ih (sight_pass callbacks.element hsight requests)
    have hgroups : (around.pass requests).groups = around.groups.tail := rfl
    have hstore : (machine.store.after callbacks.element requests).after callbacks.element segments.flatten =
        machine.store.after callbacks.element (requests :: segments).flatten := by
      rw [List.flatten_cons, Store.after_append]
    rw [hgroups] at hrun' hlog'
    simp only [hstore] at hrun' hlog'
    rw [hrun, hlog, hrun', hlog']
    simp only [seenAlong, deedsAlong, List.flatMap_cons, List.append_assoc, List.cons_append,
      Surroundings.along_cons, List.nil_append, and_self]

/-- A lane that comes to its normal end behind its last barrier. -/
theorem Passes.among_eq_of_done {result : β}
    (h : Passes callbacks program (.start machine groups) segments (done result)) :
    program.runAmong callbacks groups machine =
        (seenAlong callbacks (.start machine groups) segments, .ok result,
          ⟨((Surroundings.start machine groups).along segments).sight.slots,
            machine.store.after callbacks.element segments.flatten⟩) ∧
      program.logAmong callbacks groups machine = deedsAlong segments ++ [.ends] := by
  obtain ⟨hrun, hlog⟩ := h.among_eq (rfl : machine.sight = _)
  refine ⟨hrun.trans ?_, hlog⟩
  rw [runAmong, List.append_nil]

/-- At each barrier the others store to the slots as the lane has left them. -/
theorem Passes.storeAll_eq (h : Passes callbacks program around segments rest) {barriers : Nat}
    {requests : List (Request σ α)} (hrequests : segments[barriers]? = some requests) :
    storeAll (slotsAfter (around.along (segments.take barriers)).sight.slots requests)
        (around.groups[barriers]?.getD []) =
      (none, (around.along (segments.take (barriers + 1))).sight.slots) := by
  rw [← slots_after]
  induction h generalizing barriers with
  | here _ _ => cases hrequests
  | @pass program next rest around first segments segment inside _ ih =>
    cases barriers with
    | zero =>
      obtain rfl := Option.some.inj hrequests
      rw [← around.headD_groups]
      exact Lane.storeAll_eq fun entry hentry => by rw [Sight.size_after]; exact inside entry hentry
    | succ barriers =>
      rw [← around.getD_groups_pass first]
      exact ih hrequests

end Run

section Along

variable (callbacks) (around : Surroundings σ) (segments : List (List (Request σ α)))

theorem filterMap_slots?_seenAlong (requests : List (Request σ α)) :
    (seenAlong callbacks around (requests :: segments)).filterMap LaneEvent.slots? =
      (around.pass requests).sight.slots ::
        (seenAlong callbacks (around.pass requests) segments).filterMap LaneEvent.slots? := by
  have hnone : (requests.filterMap (Request.event? callbacks)).filterMap LaneEvent.slots? = [] := by
    apply List.filterMap_eq_nil_iff.mpr
    intro event hevent
    obtain ⟨request, _, hrequest⟩ := List.mem_filterMap.mp hevent
    exact Request.slots?_of_event? hrequest
  rw [seenAlong, List.filterMap_append, hnone]
  rfl

/-- **What is seen at the barriers** is what the lane finds behind each of them. -/
theorem behind_seenAlong {barriers : Nat} (h : barriers ≤ segments.length) :
    LaneEvent.behind around.sight.slots (seenAlong callbacks around segments) barriers =
      some (around.along (segments.take barriers)).sight.slots := by
  induction segments generalizing around barriers with
  | nil =>
    obtain rfl := Nat.le_zero.mp h
    rfl
  | cons requests segments ih =>
    cases barriers with
    | zero => rfl
    | succ barriers =>
      rw [LaneEvent.behind, filterMap_slots?_seenAlong, List.getElem?_cons_succ]
      exact ih (around.pass requests) (Nat.le_of_succ_le_succ h)

/-- There is an event for each barrier. -/
theorem length_filterMap_slots? :
    ((seenAlong callbacks around segments).filterMap LaneEvent.slots?).length = segments.length := by
  induction segments generalizing around with
  | nil => rfl
  | cons requests segments ih =>
    rw [filterMap_slots?_seenAlong, List.length_cons, List.length_cons, ih]

/-- The applications that are seen are those that the lane has asked for. -/
theorem filterMap_application?_seenAlong :
    (seenAlong callbacks around segments).filterMap LaneEvent.application? =
      segments.flatMap fun requests =>
        (requests.filterMap (Request.event? callbacks)).filterMap LaneEvent.application? := by
  induction segments generalizing around with
  | nil => rfl
  | cons requests segments ih =>
    rw [seenAlong, List.filterMap_append, List.filterMap_cons_none (by rfl), ih, List.flatMap_cons]

/-- **What a lane asks between two barriers.** -/
theorem segment_deedsAlong (barriers : Nat) :
    Deed.segment barriers (deedsAlong segments ++ [.ends]) = segments[barriers]?.getD [] := by
  induction segments generalizing barriers with
  | nil => cases barriers <;> rfl
  | cons requests segments ih =>
    rw [deedsAlong, List.flatMap_cons, List.append_assoc, List.append_assoc]
    cases barriers with
    | zero => exact Deed.segment_zero_map_asks requests rfl
    | succ barriers => exact (Deed.segment_succ_map_asks ..).trans (ih barriers)

/-- It arrives at each of its barriers. -/
theorem arrivals_deedsAlong : Deed.arrivals (deedsAlong segments ++ [.ends]) = segments.length := by
  induction segments with
  | nil => rfl
  | cons requests segments ih =>
    have hasks : (requests.map (Deed.asks : Request σ α → Deed σ α)).countP Deed.isArrival = 0 := by
      apply List.countP_eq_zero.mpr
      intro deed hdeed
      obtain ⟨request, _, rfl⟩ := List.mem_map.mp hdeed
      exact Bool.false_ne_true
    rw [deedsAlong, List.flatMap_cons, List.append_assoc, List.append_assoc, Deed.arrivals,
      List.countP_append, hasks, Nat.zero_add, List.length_cons, ← ih]
    exact List.countP_cons_of_pos rfl

/-- It asks nothing else. -/
theorem mem_deedsAlong {request : Request σ α} (h : .asks request ∈ deedsAlong segments ++ [.ends]) :
    ∃ requests ∈ segments, request ∈ requests := by
  rcases List.mem_append.mp h with h | h
  · obtain ⟨requests, hrequests, h⟩ := List.mem_flatMap.mp h
    refine ⟨requests, hrequests, ?_⟩
    simpa using h
  · simp at h

end Along

end Lane

end BlockMachine
