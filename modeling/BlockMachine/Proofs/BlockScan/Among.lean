import BlockMachine.Proofs.BlockScan.Interleaving
import BlockMachine.Proofs.Lane.Among
import Mathlib.Data.List.Forall2

/-!
# One lane of a scan among others

What a lane of a scan does hangs on the slots that it finds behind its barriers, and on nothing else.  Whatever the
others store, it goes through its rounds, and in each of them it reads, meets the others, writes its own slot and
meets them again.

* `BlockScan.InRound`, `BlockScan.InRounds` — what a lane asks in one round, and in some of them.
* `BlockScan.passes_round`, `BlockScan.passes_rounds` — it passes two barriers in each round.
* `BlockScan.InRounds.applications` — it applies the operator once for each distance that it can reach.
* `BlockScan.ScansAmong` — what is seen of the lane, what it leaves and what it has done.
* `BlockScan.InRounds.scanned` — if the others write what they write in a block, it finds what it finds there.
* `BlockScan.scan_among` — all this of the lane as it runs.
-/

set_option autoImplicit false

namespace BlockMachine

open History

namespace BlockScan

variable {σ α : Type} {callbacks : Callbacks σ α} {op : σ → σ → σ} {lane n : Nat}

/-! ## Rounds -/

/-- What a lane asks in round `k` when it finds certain slots at its beginning: what it reads and combines before
the first barrier of the round, and what it writes before the second one. -/
inductive InRound (op : σ → σ → σ) (lane n k : Nat) (slots : Array σ) :
    (reads writes : List (Request σ α)) → Prop
  | stands (h : ¬ (distance k ≤ lane ∧ lane < n)) : InRound op lane n k slots [] []
  | combines {left right : σ} (hle : distance k ≤ lane) (hlt : lane < n)
      (hleft : slots[lane - distance k]? = some left) (hright : slots[lane]? = some right) :
      InRound op lane n k slots
        [.load (lane - distance k), .load lane, .combine left right] [.store lane (op left right)]

/-- What a lane asks in some rounds from round `k` on. -/
inductive InRounds (op : σ → σ → σ) (lane n : Nat) :
    (k rounds : Nat) → Surroundings σ → List (List (Request σ α)) → Prop
  | none (k : Nat) (around : Surroundings σ) : InRounds op lane n k 0 around []
  | next {k rounds : Nat} {around : Surroundings σ} {reads writes : List (Request σ α)}
      {segments : List (List (Request σ α))} (first : InRound op lane n k around.sight.slots reads writes)
      (later : InRounds op lane n (k + 1) rounds ((around.pass reads).pass writes) segments) :
      InRounds op lane n k (rounds + 1) around (reads :: writes :: segments)

/-- A request of a lane that scans: it keeps to the first slots and stores to none but its own. -/
structure Kept (lane n : Nat) (request : Request σ α) : Prop where
  keeps : request.Local
  within : ∀ slot, request.slot? = some slot → slot < n
  own : ∀ slot, request.stored? = some slot → slot = lane

/-- **A lane passes two barriers in a round**, whatever it finds. -/
theorem passes_round (hop : ∀ left right, callbacks.combine left right = .ok (op left right)) (lane k : Nat)
    {around : Surroundings σ} (hsize : n ≤ around.sight.slots.size)
    (hinside : ∀ barriers < 2, ∀ entry ∈ around.groups[barriers]?.getD [], entry.1 < around.sight.slots.size) :
    ∃ reads writes, Lane.Passes callbacks (round lane n (distance k) : Lane σ α Unit) around [reads, writes]
      (.done ()) ∧ InRound op lane n k around.sight.slots reads writes := by
  have hfirst : ∀ entry ∈ around.groups.headD [], entry.1 < around.sight.slots.size := by
    rw [around.headD_groups]
    exact hinside 0 (by decide)
  have hsecond : ∀ (reads : List (Request σ α)), ∀ entry ∈ (around.pass reads).groups.headD [],
      entry.1 < (around.pass reads).sight.slots.size := by
    intro reads
    rw [Surroundings.headD_groups, around.getD_groups_pass reads, around.size_pass]
    exact hinside 1 (by decide)
  by_cases h : distance k ≤ lane ∧ lane < n
  · have hlane : lane < around.sight.slots.size := Nat.lt_of_lt_of_le h.2 hsize
    have hbefore : lane - distance k < around.sight.slots.size := Nat.lt_of_le_of_lt (Nat.sub_le ..) hlane
    have hleft := Array.getElem?_eq_getElem hbefore
    have hright := Array.getElem?_eq_getElem hlane
    exact ⟨_, _, .pass (segment_round_of_slots h hleft hright (hop _ _)) hfirst
      (.pass (segment_store (by rw [around.size_pass]; exact hlane) _) (hsecond _) (.here ..)),
      .combines h.1 h.2 hleft hright⟩
  · refine ⟨[], [], ?_, .stands h⟩
    rw [round, if_neg h]
    exact .pass rfl hfirst (.pass rfl (hsecond _) (.here ..))

/-- **A lane passes the barriers of its rounds.** -/
theorem passes_rounds (hop : ∀ left right, callbacks.combine left right = .ok (op left right)) (lane : Nat)
    (rounds : Nat) : ∀ (k : Nat) (around : Surroundings σ), n ≤ around.sight.slots.size →
      (∀ barriers < 2 * rounds, ∀ entry ∈ around.groups[barriers]?.getD [],
        entry.1 < around.sight.slots.size) →
      ∃ segments, Lane.Passes callbacks
        (Lane.forEach ((List.range' k rounds).map (Nat.pow 2)) (round lane n) : Lane σ α Unit) around segments
        (.done ()) ∧ InRounds op lane n k rounds around segments := by
  induction rounds with
  | zero => exact fun k around _ _ => ⟨[], .here .., .none ..⟩
  | succ rounds ih =>
    intro k around hsize hinside
    obtain ⟨reads, writes, hround, hfirst⟩ := passes_round (α := α) hop lane k hsize
      fun barriers hbarriers => hinside barriers (by omega)
    obtain ⟨segments, hrest, hlater⟩ := ih (k + 1) ((around.pass reads).pass writes)
      (by simpa using hsize) fun barriers hbarriers entry hentry => by
        rw [Surroundings.getD_groups_pass, Surroundings.getD_groups_pass] at hentry
        simpa using hinside (barriers + 1 + 1) (by omega) entry hentry
    exact ⟨reads :: writes :: segments, hround.seq (f := fun _ => Lane.forEach
      ((List.range' (k + 1) rounds).map (Nat.pow 2)) (round lane n)) hrest, .next hfirst hlater⟩

section Rounds

variable {k rounds : Nat} {around : Surroundings σ} {slots : Array σ} {reads writes : List (Request σ α)}
  {segments : List (List (Request σ α))}

theorem InRound.kept (h : InRound op lane n k slots reads writes) :
    (∀ request ∈ reads, Kept lane n request) ∧ ∀ request ∈ writes, Kept lane n request := by
  cases h with
  | stands _ => exact ⟨fun _ hr => absurd hr List.not_mem_nil, fun _ hr => absurd hr List.not_mem_nil⟩
  | combines hle hlt _ _ =>
    have hload : ∀ slot ≤ lane, Kept lane n (.load slot : Request σ α) := fun slot hslot =>
      ⟨trivial, fun _ h => Option.some.inj h ▸ Nat.lt_of_le_of_lt hslot hlt, nofun⟩
    constructor
    · simp only [List.forall_mem_cons]
      exact ⟨hload _ (Nat.sub_le ..), hload _ (Nat.le_refl _), ⟨trivial, nofun, nofun⟩,
        fun _ hr => absurd hr List.not_mem_nil⟩
    · exact List.forall_mem_singleton.mpr
        ⟨trivial, fun _ h => Option.some.inj h ▸ hlt, fun _ h => (Option.some.inj h).symm⟩

theorem InRounds.kept (h : InRounds op lane n k rounds around segments) :
    ∀ requests ∈ segments, ∀ request ∈ requests, Kept lane n request := by
  induction h with
  | none _ _ => exact fun _ hr => absurd hr List.not_mem_nil
  | next first _ ih =>
    simp only [List.forall_mem_cons]
    exact ⟨first.kept.1, first.kept.2, ih⟩

theorem InRounds.length_eq (h : InRounds op lane n k rounds around segments) :
    segments.length = 2 * rounds := by
  induction h with
  | none _ _ => rfl
  | next _ _ ih =>
    rw [List.length_cons, List.length_cons, ih]
    omega

/-- What a lane asks in one of its rounds. -/
theorem InRounds.exists_round (h : InRounds op lane n k rounds around segments) {turn : Nat}
    (hturn : turn < rounds) :
    InRound op lane n (k + turn) (around.along (segments.take (2 * turn))).sight.slots
      (segments[2 * turn]?.getD []) (segments[2 * turn + 1]?.getD []) := by
  induction h generalizing turn with
  | none _ _ => exact absurd hturn (Nat.not_lt_zero _)
  | @next k rounds around reads writes segments first _ ih =>
    cases turn with
    | zero => exact first
    | succ turn =>
      have hround := ih (Nat.lt_of_succ_lt_succ hturn)
      rw [Nat.add_right_comm] at hround
      exact hround

/-- **A lane applies the operator once for each distance that it can reach**, the smallest first, to what it finds
at the beginning of that round. -/
theorem InRounds.applications (hop : ∀ left right, callbacks.combine left right = .ok (op left right))
    (h : InRounds op lane n k rounds around segments) (found : Nat → Array σ)
    (hfound : ∀ turn < rounds, (around.along (segments.take (2 * turn))).sight.slots = found (k + turn)) :
    List.Forall₂ (fun turn application => turn < k + rounds ∧ ∃ left right,
        (found turn)[lane - distance turn]? = some left ∧ (found turn)[lane]? = some right ∧
        application = (left, right, op left right))
      ((List.range' k rounds).filter fun turn => distance turn ≤ lane ∧ lane < n)
      (segments.flatMap fun requests =>
        (requests.filterMap (Request.event? callbacks)).filterMap LaneEvent.application?) := by
  induction h with
  | none _ _ => exact .nil
  | @next k rounds around reads writes segments first _ ih =>
    have hlater := ih fun turn hturn => by
      have hnext := hfound (turn + 1) (Nat.succ_lt_succ hturn)
      rw [← Nat.add_assoc, Nat.add_right_comm] at hnext
      exact hnext
    have hnow : around.sight.slots = found k := hfound 0 (Nat.succ_pos _)
    rw [Nat.add_right_comm] at hlater
    rw [List.range'_succ, List.filter_cons, List.flatMap_cons, List.flatMap_cons]
    cases first with
    | stands h =>
      rw [if_neg (by simpa using h)]
      exact hlater
    | @combines left right hle hlt hleft hright =>
      rw [if_pos (by simpa using ⟨hle, hlt⟩)]
      rw [hnow] at hleft hright
      have hevent : Request.event? callbacks (.combine left right : Request σ α) =
          some (.combined left right (op left right)) := by
        rw [Request.event?, hop]
      simp only [List.filterMap_cons, hevent]
      exact .cons ⟨by omega, left, right, hleft, hright, rfl⟩ hlater

end Rounds

/-! ## Among the other lanes of a block -/

section Others

variable {values : Nat → Nat → σ} {k rounds : Nat} {around : Surroundings σ}
  {reads writes : List (Request σ α)} {segments : List (List (Request σ α))}

/-- The others store what the other lanes of a scan write: nothing in the first stage of a round, and in the second
one the new values of their slots. -/
def WritesOfOthers (values : Nat → Nat → σ) (lane n k rounds : Nat) (groups : List (List (Nat × σ))) : Prop :=
  ∀ turn < rounds, (∀ entry, entry ∉ groups[2 * turn]?.getD []) ∧
    ∀ slot value, (slot, value) ∈ groups[2 * turn + 1]?.getD [] ↔
      slot ≠ lane ∧ distance (k + turn) ≤ slot ∧ slot < n ∧ value = values (k + turn + 1) slot

/-- A lane that finds the values of a round at its beginning writes its new value. -/
theorem InRound.stores_value (hop : ∀ left right, callbacks.combine left right = .ok (op left right))
    (hvalues : Values callbacks n values) {sight : Sight σ} (hholds : Holds n values k sight)
    (h : InRound op lane n k sight.slots reads writes) :
    (∀ request ∈ reads, request.stored? = none) ∧
      ((¬ (distance k ≤ lane ∧ lane < n) ∧ writes = []) ∨
        (distance k ≤ lane ∧ lane < n ∧ writes = [.store lane (values (k + 1) lane)])) := by
  cases h with
  | stands h => exact ⟨fun _ hr => absurd hr List.not_mem_nil, .inl ⟨h, rfl⟩⟩
  | @combines left right hle hlt hleft hright =>
    refine ⟨by simp [Request.stored?], .inr ⟨hle, hlt, ?_⟩⟩
    obtain rfl : values k (lane - distance k) = left :=
      Option.some.inj ((hholds _ (Nat.lt_of_le_of_lt (Nat.sub_le ..) hlt)).symm.trans hleft)
    obtain rfl : values k lane = right := Option.some.inj ((hholds lane hlt).symm.trans hright)
    have hvalue := hvalues.combine k lane hle hlt
    rw [hop] at hvalue
    rw [Except.ok.inj hvalue]

/-- **One round among the other lanes of a block** leaves what the round of the block leaves. -/
theorem InRound.scanned (hop : ∀ left right, callbacks.combine left right = .ok (op left right))
    (hvalues : Values callbacks n values) (hholds : Holds n values k around.sight)
    (h : InRound op lane n k around.sight.slots reads writes) {more : Nat}
    (hothers : WritesOfOthers values lane n k (more + 1) around.groups) :
    Scanned n values (k + 1) around.sight ((around.pass reads).pass writes).sight := by
  obtain ⟨hreads, hwrites⟩ := h.stores_value hop hvalues hholds
  obtain ⟨hfirst, hsecond⟩ := hothers 0 (Nat.succ_pos _)
  have hgroup : (around.pass reads).groups[0]?.getD [] = around.groups[1]?.getD [] :=
    around.getD_groups_pass reads 0
  -- nobody writes before the first barrier
  have hmiddle : ∀ slot : Nat, (around.pass reads).sight.slots[slot]? = around.sight.slots[slot]? := by
    intro slot
    rw [Surroundings.slot_pass_of_not_mem fun value => hfirst (slot, value)]
    exact Sight.slot_after_of_not_stored (fun request hr hs => by rw [hreads request hr] at hs; cases hs) _
  have hkeeps : ∀ slot : Nat, ¬ (distance k ≤ slot ∧ slot < n) →
      ((around.pass reads).pass writes).sight.slots[slot]? = around.sight.slots[slot]? := by
    intro slot hslot
    rw [Surroundings.slot_pass_of_not_mem, Sight.slot_after_of_not_stored, hmiddle]
    · intro request hr hs
      rcases hwrites with ⟨_, rfl⟩ | ⟨hle, hlt, rfl⟩
      · cases hr
      · obtain rfl := List.mem_singleton.mp hr
        obtain rfl : lane = slot := Option.some.inj hs
        exact hslot ⟨hle, hlt⟩
    · intro value hmem
      rw [hgroup] at hmem
      obtain ⟨_, hle, hlt, _⟩ := (hsecond slot value).mp hmem
      exact hslot ⟨hle, hlt⟩
  refine ⟨fun i hi => ?_, by simp, fun slot hslot => hkeeps slot (by omega), ?_⟩
  · by_cases hdistance : distance k ≤ i
    · have hsize : i < (around.pass reads).sight.slots.size := by
        obtain ⟨hlt, _⟩ := Array.getElem?_eq_some_iff.mp (hholds i hi)
        simpa using hlt
      by_cases hlane : i = lane
      · subst hlane
        obtain ⟨hout, _⟩ | ⟨_, _, rfl⟩ := hwrites
        · exact absurd ⟨hdistance, hi⟩ hout
        · rw [Surroundings.slot_pass_of_not_mem fun value hmem =>
            ((hsecond i value).mp (hgroup ▸ hmem)).1 rfl]
          exact Array.getElem?_setIfInBounds_self_of_lt hsize
      · refine Surroundings.slot_pass_of_mem ?_ (fun other hmem => ?_) hsize writes
        · rw [hgroup]
          exact (hsecond i _).mpr ⟨hlane, hdistance, hi, rfl⟩
        · rw [hgroup] at hmem
          exact ((hsecond i other).mp hmem).2.2.2
    · rw [hkeeps i fun h => hdistance h.1, hholds i hi, hvalues.stays k i (Nat.lt_of_not_le hdistance)]
  · rw [Surroundings.calls_pass fun request hr => (h.kept.2 request hr).keeps.item?_eq,
      Surroundings.calls_pass fun request hr => (h.kept.1 request hr).keeps.item?_eq]

/-- **A lane among the other lanes of a block finds what it finds there**: after some rounds the slots hold the
values of these rounds. -/
theorem InRounds.scanned (hop : ∀ left right, callbacks.combine left right = .ok (op left right))
    (hvalues : Values callbacks n values) (h : InRounds op lane n k rounds around segments)
    (hholds : Holds n values k around.sight) (hothers : WritesOfOthers values lane n k rounds around.groups) :
    Scanned n values (k + rounds) around.sight (around.along segments).sight := by
  induction h with
  | none _ _ => exact .refl hholds
  | @next k rounds around reads writes segments first _ ih =>
    have hround := first.scanned hop hvalues hholds hothers
    have hrest := ih hround.holds fun turn hturn => by
      have hlater := hothers (turn + 1) (Nat.succ_lt_succ hturn)
      have hindex : k + (turn + 1) = k + 1 + turn := by omega
      rw [hindex] at hlater
      rw [Surroundings.getD_groups_pass, Surroundings.getD_groups_pass, Surroundings.getD_groups_pass,
        Surroundings.getD_groups_pass]
      exact hlater
    rw [Nat.add_right_comm] at hrest
    exact hround.trans hrest

/-- The stages of a scan, two for each round. -/
theorem getElem?_stages (n : Nat) (values : Nat → Nat → σ) (k : Nat) {turn : Nat} (hturn : turn < rounds) :
    (stages n values k rounds : List (Stage σ α))[2 * turn]? = some (readStage n values (k + turn)) ∧
      (stages n values k rounds : List (Stage σ α))[2 * turn + 1]? =
        some (writeStage n values (k + turn)) := by
  induction rounds generalizing k turn with
  | zero => exact absurd hturn (Nat.not_lt_zero _)
  | succ rounds ih =>
    cases turn with
    | zero => exact ⟨rfl, rfl⟩
    | succ turn =>
      have hlater := ih (k + 1) (Nat.lt_of_succ_lt_succ hturn)
      rw [Nat.add_right_comm] at hlater
      exact hlater

/-- What the other lanes of a block store in the stages of a scan. -/
theorem writesOfOthers {lanes : Nat} (hn : n ≤ lanes) {groups : List (List (Nat × σ))}
    (h : ∀ barrier < 2 * rounds, ∀ stage, (stages n values 0 rounds : List (Stage σ α))[barrier]? = some stage →
      ∀ slot value, (slot, value) ∈ groups[barrier]?.getD [] ↔
        ∃ other, other ≠ lane ∧ other < lanes ∧ .store slot value ∈ stage other) :
    WritesOfOthers values lane n 0 rounds groups := by
  intro turn hturn
  obtain ⟨hread, hwrite⟩ := getElem?_stages (α := α) n values 0 hturn
  refine ⟨fun ⟨slot, value⟩ hmem => ?_, fun slot value => ?_⟩
  · obtain ⟨other, _, _, hstore⟩ := (h (2 * turn) (by omega) _ hread slot value).mp hmem
    cases (mem_readStage hstore).2
  · rw [h (2 * turn + 1) (by omega) _ hwrite slot value]
    constructor
    · rintro ⟨other, hother, _, hstore⟩
      obtain ⟨hle, hlt, hrequest⟩ := mem_writeStage hstore
      obtain ⟨rfl, rfl⟩ := Request.store.inj hrequest
      exact ⟨hother, hle, hlt, rfl⟩
    · rintro ⟨hslot, hle, hlt, rfl⟩
      refine ⟨slot, hslot, Nat.lt_of_lt_of_le hlt hn, ?_⟩
      rw [writeStage, if_pos ⟨hle, hlt⟩]
      exact List.mem_singleton_self _

end Others

/-- The others store at each barrier what the lanes of a block but one have stored since the barrier before. -/
def StoresOfOthers (lane barriers : Nat) (log : List (Nat × Deed σ α)) (groups : List (List (Nat × σ))) : Prop :=
  ∀ barrier < barriers, ∀ slot value, (slot, value) ∈ groups[barrier]?.getD [] ↔
    ∃ other, other ≠ lane ∧ .store slot value ∈ Deed.segment barrier (own other log)

/-- **What a block that scans has done when it is over**, stage by stage, and what it leaves. -/
theorem scanned_of_isOver {values : Nat → Nat → σ} (hvalues : Values callbacks n values) (geometry : Geometry)
    (block : Nat) (hthreads : 0 < geometry.threads) (hn : n ≤ geometry.threads) (slots : Array σ)
    (hslots : n ≤ slots.size) (store : Store α) (hholds : Holds n values 0 ⟨slots, store.journal.calls⟩)
    (turns : List Nat) (hover : ((crew geometry block n slots).run callbacks store turns).1.isOver = true) :
    (∃ last, Scanned n values (roundCount n) ⟨slots, store.journal.calls⟩ last ∧
      ((crew geometry block n slots).run callbacks store turns).1.slots = last.slots) ∧
    ∀ barrier stage, (stages n values 0 (roundCount n) : List (Stage σ α))[barrier]? = some stage →
      ∀ other request, request ∈ Deed.segment barrier
          (own other ((crew geometry block n slots).log callbacks store turns)) ↔
        other < geometry.threads ∧ request ∈ stage other := by
  obtain ⟨last, hreaches, hscanned⟩ :=
    reaches_scanFirst (α := α) hvalues geometry block hn hholds rfl hslots
  have hends : Block.EndWell geometry.threads (fun _ => (.finished () : Stop σ α Unit)) :=
    fun _ _ => ⟨(), rfl⟩
  have hfollows := (Crew.Follows.start (hreaches.runs_done hthreads) fun _ _ => rfl).run turns
  obtain ⟨hown, _, hleft⟩ := hfollows.of_isOver hends hover
  refine ⟨⟨last, hscanned, ?_⟩, fun barrier stage hstage other request => ?_⟩
  · rw [hreaches.last_eq]
    refine hleft.trans ?_
    rw [List.flatMap_append, Sight.after_append, List.flatMap_cons, Stage.all_nil]
    rfl
  · have hsegment : ∀ other < geometry.threads, Deed.segment barrier
        (own other ((crew geometry block n slots).log callbacks store turns)) = stage other := by
      intro other hother
      have hcourse := Deed.segment_course (σ := σ) (α := α)
        (stages n values 0 (roundCount n) ++ [fun _ => []]) other barrier
      obtain ⟨hlt, _⟩ := List.getElem?_eq_some_iff.mp hstage
      rw [← hown other hother, List.getElem?_append_left hlt, hstage] at hcourse
      exact hcourse
    constructor
    · intro hr
      have hother := (hfollows.mem_stage (mem_own.mp (Deed.mem_of_segment hr))).1
      exact ⟨hother, hsegment other hother ▸ hr⟩
    · rintro ⟨hother, hr⟩
      rw [hsegment other hother]
      exact hr

/-! ## One lane -/

/-- The powers of two that a lane can reach. -/
def powers (lane n : Nat) : List Nat :=
  ((List.range' 0 (roundCount n)).filter fun turn => distance turn ≤ lane ∧ lane < n).map distance

theorem distance_lt {k more : Nat} (h : k < more) : distance k < distance more :=
  Nat.pow_lt_pow_right (by decide) h

theorem pairwise_powers (lane n : Nat) : (powers lane n).Pairwise (· < ·) := by
  apply List.pairwise_map.mpr
  exact List.Pairwise.filter _ (List.Pairwise.imp distance_lt List.pairwise_lt_range')

theorem mem_powers {power : Nat} :
    power ∈ powers lane n ↔ (∃ k, power = 2 ^ k) ∧ power ≤ lane ∧ lane < n := by
  simp only [powers, List.mem_map, List.mem_filter, List.mem_range'_1, decide_eq_true_eq]
  constructor
  · rintro ⟨k, ⟨_, hle, hlt⟩, rfl⟩
    exact ⟨⟨k, rfl⟩, hle, hlt⟩
  · rintro ⟨⟨k, rfl⟩, hle, hlt⟩
    refine ⟨k, ⟨⟨Nat.zero_le k, ?_⟩, hle, hlt⟩, rfl⟩
    rw [Nat.zero_add, roundCount_eq_clog, Nat.lt_clog_iff_pow_lt (by decide)]
    exact Nat.lt_of_le_of_lt hle hlt

/-- A lane applies the operator once for each power of two that it can reach. -/
theorem InRounds.applications_powers (hop : ∀ left right, callbacks.combine left right = .ok (op left right))
    {around : Surroundings σ} {segments : List (List (Request σ α))}
    (h : InRounds op lane n 0 (Nat.clog 2 n) around segments) :
    List.Forall₂ (fun power application => 2 * Nat.log 2 power ≤ 2 * Nat.clog 2 n ∧ ∃ left right,
        (around.along (segments.take (2 * Nat.log 2 power))).sight.slots[lane - power]? = some left ∧
        (around.along (segments.take (2 * Nat.log 2 power))).sight.slots[lane]? = some right ∧
        application = (left, right, op left right))
      (powers lane n)
      (segments.flatMap fun requests =>
        (requests.filterMap (Request.event? callbacks)).filterMap LaneEvent.application?) := by
  rw [powers, List.forall₂_map_left_iff, roundCount_eq_clog]
  have happlications := h.applications hop
    (fun turn => (around.along (segments.take (2 * turn))).sight.slots) fun turn _ => by rw [Nat.zero_add]
  refine happlications.imp ?_
  rintro turn _ ⟨hturn, happlication⟩
  have hlog : Nat.log 2 (distance turn) = turn := Nat.log_pow (by decide) turn
  rw [hlog]
  exact ⟨by omega, happlication⟩

/-- What is seen of a lane that scans the first `n` slots among others, what it leaves and what it has done,
whatever the others store at its barriers. -/
structure ScansAmong (op : σ → σ → σ) (lane n : Nat) (slots : Array σ) (store : Store α)
    (groups : List (List (Nat × σ))) (run : List (LaneEvent σ) × Except Panic Unit × Machine σ α)
    (log : List (Deed σ α)) : Prop where
  /-- The lane comes to its normal end, and nothing but the slots is touched. -/
  ends : run.2.1 = .ok () ∧ run.2.2.store = store
  /-- It passes two barriers in each round. -/
  barriers : Deed.arrivals log = 2 * Nat.clog 2 n ∧
    (run.1.filterMap LaneEvent.slots?).length = 2 * Nat.clog 2 n
  /-- It applies the operator once for each power of two that it can reach, the smallest first: to what its own slot
  and the one that far before hold behind the barriers of the rounds before. -/
  applications : ∃ powers : List Nat, powers.Pairwise (· < ·) ∧
    (∀ power, power ∈ powers ↔ (∃ k, power = 2 ^ k) ∧ power ≤ lane ∧ lane < n) ∧
    List.Forall₂ (fun power application => ∃ found left right,
        LaneEvent.behind slots run.1 (2 * Nat.log 2 power) = some found ∧
        found[lane - power]? = some left ∧ found[lane]? = some right ∧
        application = (left, right, op left right))
      powers (run.1.filterMap LaneEvent.application?)
  /-- In each round it reads and combines before the first barrier, and writes before the second one. -/
  rounds : ∀ k < Nat.clog 2 n, ∃ found, LaneEvent.behind slots run.1 (2 * k) = some found ∧
    InRound op lane n k found (Deed.segment (2 * k) log) (Deed.segment (2 * k + 1) log)
  /-- Behind its last barrier it does nothing. -/
  rest : ∀ barriers, 2 * Nat.clog 2 n ≤ barriers → Deed.segment barriers log = []
  /-- It stores to no slot but its own, and touches none from `n` on. -/
  kept : ∀ request, .asks request ∈ log → Kept lane n request
  /-- Between two barriers it alone changes the slots, and at the second one the others do. -/
  stores : ∀ barrier < 2 * Nat.clog 2 n, ∃ before after,
    LaneEvent.behind slots run.1 barrier = some before ∧
    LaneEvent.behind slots run.1 (barrier + 1) = some after ∧
    Lane.storeAll (Lane.slotsAfter before (Deed.segment barrier log)) (groups[barrier]?.getD []) = (none, after)
  /-- It leaves what it finds behind the last barrier. -/
  last : LaneEvent.behind slots run.1 (2 * Nat.clog 2 n) = some run.2.2.slots

/-- The lane that passes the barriers of a scan is seen to do so. -/
theorem InRounds.scansAmong (hop : ∀ left right, callbacks.combine left right = .ok (op left right))
    {program : Lane σ α Unit} {slots : Array σ} {store : Store α} {groups : List (List (Nat × σ))}
    {segments : List (List (Request σ α))}
    (h : InRounds op lane n 0 (Nat.clog 2 n) (.start ⟨slots, store⟩ groups) segments)
    (hpasses : Lane.Passes callbacks program (.start ⟨slots, store⟩ groups) segments (.done ())) :
    ScansAmong op lane n slots store groups (program.runAmong callbacks groups ⟨slots, store⟩)
      (program.logAmong callbacks groups ⟨slots, store⟩) := by
  have hlength := h.length_eq
  have hbehind := fun barriers (hle : barriers ≤ 2 * Nat.clog 2 n) =>
    Lane.behind_seenAlong callbacks (.start ⟨slots, store⟩ groups) segments (hlength ▸ hle)
  have hlast := hbehind _ (Nat.le_refl _)
  rw [List.take_of_length_le (Nat.le_of_eq hlength)] at hlast
  have hlocal : ∀ request ∈ segments.flatten, request.Local := by
    intro request hr
    obtain ⟨requests, hrequests, hr⟩ := List.mem_flatten.mp hr
    exact (h.kept requests hrequests request hr).keeps
  obtain ⟨hrun, hlog⟩ := hpasses.among_eq_of_done
  rw [hrun, hlog]
  refine
    { ends := ⟨rfl, Store.after_of_local hlocal callbacks.element store⟩
      barriers := ⟨?_, ?_⟩
      applications := ⟨powers lane n, pairwise_powers lane n, fun _ => mem_powers, ?_⟩
      rounds := fun k hk => ⟨_, hbehind _ (by omega), ?_⟩
      rest := fun barriers hle => ?_
      kept := fun request hr => ?_
      stores := fun barrier hbarrier =>
        ⟨_, _, hbehind _ (Nat.le_of_lt hbarrier), hbehind _ hbarrier, ?_⟩
      last := hlast }
  · rw [Lane.arrivals_deedsAlong, hlength]
  · rw [Lane.length_filterMap_slots?, hlength]
  · rw [Lane.filterMap_application?_seenAlong]
    refine (h.applications_powers hop).imp ?_
    rintro power _ ⟨hle, left, right, happlication⟩
    exact ⟨_, left, right, hbehind _ hle, happlication⟩
  · rw [Lane.segment_deedsAlong, Lane.segment_deedsAlong]
    have hround := h.exists_round hk
    rw [Nat.zero_add] at hround
    exact hround
  · rw [Lane.segment_deedsAlong, List.getElem?_eq_none (hlength ▸ hle)]
    rfl
  · obtain ⟨requests, hrequests, hr⟩ := Lane.mem_deedsAlong segments hr
    exact h.kept requests hrequests request hr
  · have hrequests := List.getElem?_eq_getElem (hlength ▸ hbarrier : barrier < segments.length)
    rw [Lane.segment_deedsAlong, hrequests]
    exact hpasses.storeAll_eq hrequests

/-- **A lane of a scan among others**: whatever they store at its barriers, it goes through its rounds and keeps to
its own slot.  If they store what the other lanes of a block store there, it leaves what the block leaves. -/
theorem scan_among (hop : ∀ left right, callbacks.combine left right = .ok (op left right))
    (geometry : Geometry) (block lane : Nat) (hn : n ≤ geometry.threads) (slots : Array σ)
    (hslots : n ≤ slots.size) (store : Store α) (groups : List (List (Nat × σ)))
    (hinside : ∀ barrier < 2 * Nat.clog 2 n, ∀ entry ∈ groups[barrier]?.getD [], entry.1 < slots.size) :
    let program : Lane σ α Unit := scanFirst (geometry.context block lane) slots.size n
    ScansAmong op lane n slots store groups (program.runAmong callbacks groups ⟨slots, store⟩)
        (program.logAmong callbacks groups ⟨slots, store⟩) ∧
      (lane < geometry.threads → ∀ turns,
        ((crew geometry block n slots).run callbacks store turns).1.isOver = true →
        StoresOfOthers lane (2 * Nat.clog 2 n) ((crew geometry block n slots).log callbacks store turns) groups →
        (program.runAmong callbacks groups ⟨slots, store⟩).2.2.slots =
          ((crew geometry block n slots).run callbacks store turns).1.slots) := by
  intro program
  have hprogram := scanFirst_eq (σ := σ) (α := α) geometry block lane hn hslots
  obtain ⟨segments, hpasses, hrounds⟩ := passes_rounds (α := α) hop lane (Nat.clog 2 n) 0
    (.start ⟨slots, store⟩ groups) hslots hinside
  rw [← roundCount_eq_clog, ← hprogram] at hpasses
  refine ⟨hrounds.scansAmong hop hpasses, fun hlane turns hover hothers => ?_⟩
  obtain ⟨hrun, _⟩ := hpasses.among_eq_of_done
  rw [hrun]
  cases isEmpty_or_nonempty σ with
  | inl hempty =>
    -- there is nothing that a slot could hold
    apply Array.ext_getElem?
    intro slot
    exact Subsingleton.elim _ _
  | inr hnonempty =>
    obtain ⟨blank⟩ := hnonempty
    have hvalues := values_window hop hslots blank
    have hholds : Holds n (fun k i => ((window k i).value op slots).getD blank) 0
        ⟨slots, store.journal.calls⟩ := holds_window op hslots blank
    obtain ⟨⟨last, hscanned, hleft⟩, hstages⟩ := scanned_of_isOver hvalues geometry block
      (Nat.lt_of_le_of_lt (Nat.zero_le lane) hlane) hn slots hslots store hholds turns hover
    have hwrites : WritesOfOthers (fun k i => ((window k i).value op slots).getD blank) lane n 0
        (Nat.clog 2 n) groups := by
      apply writesOfOthers (α := α) hn
      intro barrier hbarrier stage hstage slot value
      rw [hothers barrier hbarrier slot value]
      rw [← roundCount_eq_clog] at hstage
      simp only [hstages barrier stage hstage]
    have hamong := hrounds.scanned hop hvalues hholds hwrites
    rw [Nat.zero_add, ← roundCount_eq_clog] at hamong
    rw [hleft]
    exact hamong.slots_eq hscanned

/-- The last of three lanes scans three of four slots with a difference, and finds at its first barriers what the
second lane stores in a block; it leaves what the block leaves. -/
theorem scan_among_of_differences :
    let callbacks : Callbacks Int Unit := ⟨fun _ _ => .ok 0, fun a b => .ok (a - b), .cloned 0⟩
    let program : Lane Int Unit Unit := scanFirst ((⟨1, 3, true⟩ : Geometry).context 0 2) 4 3
    let groups : List (List (Nat × Int)) := [[], [(1, 5)], [], []]
    let machine : Machine Int Unit := ⟨#[7, 2, 1, 9], ⟨#[], .start 0⟩⟩
    let turns := (List.replicate 16 [2, 0, 1]).flatten
    Deed.arrivals (program.logAmong callbacks groups machine) = 4 ∧
      (program.runAmong callbacks groups machine).2.2.slots =
        ((crew ⟨1, 3, true⟩ 0 3 #[7, 2, 1, 9]).run callbacks ⟨#[], .start 0⟩ turns).1.slots := by
  intro callbacks program groups machine turns
  have hinside : ∀ barrier < 2 * Nat.clog 2 3, ∀ entry ∈ groups[barrier]?.getD [], entry.1 < 4 := by
    decide +kernel
  have hover : ((crew ⟨1, 3, true⟩ 0 3 #[7, 2, 1, 9]).run callbacks ⟨#[], .start 0⟩ turns).1.isOver = true := by
    decide +kernel
  have hop : ∀ a b, callbacks.combine a b = .ok (a - b) := fun _ _ => rfl
  obtain ⟨hscans, hagrees⟩ := scan_among hop ⟨1, 3, true⟩ 0 2 (by decide) #[7, 2, 1, 9] (by decide)
    ⟨#[], .start 0⟩ groups hinside
  refine ⟨hscans.barriers.1.trans (by decide +kernel), hagrees (by decide) turns hover ?_⟩
  -- what the two other lanes do in the block
  let log := (crew ⟨1, 3, true⟩ 0 3 #[7, 2, 1, 9]).log callbacks ⟨#[], .start 0⟩ turns
  have hfirst : own 0 log = [.arrives, .arrives, .arrives, .arrives, .ends] := by decide +kernel
  have hsecond : own 1 log = [.asks (.load 0), .asks (.load 1), .asks (.combine 7 2), .arrives,
      .asks (.store 1 5), .arrives, .arrives, .arrives, .ends] := by decide +kernel
  have hlanes : ∀ entry ∈ log, entry.1 < 3 := by decide +kernel
  intro barrier hbarrier slot value
  have hothers : (∃ other, other ≠ 2 ∧ .store slot value ∈ Deed.segment barrier (own other log)) ↔
      .store slot value ∈ Deed.segment barrier (own 0 log) ∨
        .store slot value ∈ Deed.segment barrier (own 1 log) := by
    constructor
    · rintro ⟨other, hother, hstore⟩
      have hlt : other < 3 := hlanes _ (mem_own.mp (Deed.mem_of_segment hstore))
      obtain rfl | rfl : other = 0 ∨ other = 1 := by omega
      · exact .inl hstore
      · exact .inr hstore
    · rintro (hstore | hstore)
      · exact ⟨0, by decide, hstore⟩
      · exact ⟨1, by decide, hstore⟩
  rw [hothers, hfirst, hsecond]
  have hlt : barrier < 4 := Nat.lt_of_lt_of_le hbarrier (by decide +kernel)
  obtain rfl | rfl | rfl | rfl : barrier = 0 ∨ barrier = 1 ∨ barrier = 2 ∨ barrier = 3 := by omega
  all_goals simp [groups, Deed.segment]

end BlockScan

end BlockMachine
