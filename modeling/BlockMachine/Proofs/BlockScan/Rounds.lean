import BlockMachine.Proofs.Block.Stage
import BlockMachine.Proofs.BlockScan.Window

/-!
# The rounds of a scan within a block

The lanes of a block scan its slots in rounds, and each round in two stages: first they read and
combine, then they write.

* `BlockScan.Values` — the values of the slots round by round.
* `BlockScan.readStage`, `BlockScan.writeStage` — what the lanes ask in a round.
* `BlockScan.reaches_scanFirst` — a scan passes the barriers of its rounds, its stages are without
  clashes, and it leaves the last of the values.
-/

set_option autoImplicit false

namespace BlockMachine

namespace BlockScan

variable {σ α : Type} {callbacks : Callbacks σ α} {lanes n : Nat} {values : Nat → Nat → σ}

/-- The value of slot `i` after `k` rounds over `n` slots is `values k i`. -/
structure Values (callbacks : Callbacks σ α) (n : Nat) (values : Nat → Nat → σ) : Prop where
  combine : ∀ k i, distance k ≤ i → i < n →
    callbacks.combine (values k (i - distance k)) (values k i) = .ok (values (k + 1) i)
  stays : ∀ k i, i < distance k → values (k + 1) i = values k i

/-- What the lanes ask in round `k` before they meet. -/
def readStage (n : Nat) (values : Nat → Nat → σ) (k : Nat) : Stage σ α := fun lane =>
  if distance k ≤ lane ∧ lane < n then
    [.load (lane - distance k), .load lane, .combine (values k (lane - distance k)) (values k lane)]
  else []

/-- What the lanes ask in round `k` after that. -/
def writeStage (n : Nat) (values : Nat → Nat → σ) (k : Nat) : Stage σ α := fun lane =>
  if distance k ≤ lane ∧ lane < n then [.store lane (values (k + 1) lane)] else []

/-- The stages of a number of rounds from round `k` on. -/
def stages (n : Nat) (values : Nat → Nat → σ) : (k rounds : Nat) → List (Stage σ α)
  | _, 0 => []
  | k, rounds + 1 => readStage n values k :: writeStage n values k :: stages n values (k + 1) rounds

/-- What a lane does in round `k` once it has read. -/
def afterRead (n : Nat) (values : Nat → Nat → σ) (k lane : Nat) : Lane σ α Unit :=
  if distance k ≤ lane ∧ lane < n then do
    Lane.store lane (values (k + 1) lane)
    Lane.sync
  else Lane.sync

theorem mem_readStage {k lane : Nat} {request : Request σ α}
    (h : request ∈ readStage n values k lane) : request.Local ∧ request.stored? = none := by
  unfold readStage at h
  split at h
  · simp only [List.mem_cons, List.not_mem_nil, or_false] at h
    rcases h with rfl | rfl | rfl <;> exact ⟨trivial, rfl⟩
  · cases h

theorem mem_writeStage {k lane : Nat} {request : Request σ α}
    (h : request ∈ writeStage n values k lane) :
    distance k ≤ lane ∧ lane < n ∧ request = .store lane (values (k + 1) lane) := by
  unfold writeStage at h
  split at h
  · rename_i hpart
    exact ⟨hpart.1, hpart.2, List.mem_singleton.mp h⟩
  · cases h

/-- The requests of a scan keep to the slots. -/
theorem local_of_mem_stages {k rounds : Nat} {stage : Stage σ α}
    (hstage : stage ∈ stages n values k rounds) {lane : Nat} {request : Request σ α}
    (h : request ∈ stage lane) : request.Local := by
  induction rounds generalizing k with
  | zero => cases hstage
  | succ rounds ih =>
    simp only [stages, List.mem_cons] at hstage
    rcases hstage with rfl | rfl | hstage
    · exact (mem_readStage h).1
    · rw [(mem_writeStage h).2.2]
      trivial
    · exact ih hstage

/-- In the first stage of a round nobody writes. -/
theorem apart_readStage (k : Nat) : (readStage n values k : Stage σ α).Apart callbacks lanes := by
  intro i _ j _ _ request hr other ho hclash
  obtain ⟨hlocal, hstored⟩ := mem_readStage hr
  obtain ⟨_, hstored'⟩ := mem_readStage ho
  rcases hclash with ⟨slot, h, _⟩ | ⟨slot, h, _⟩ | ⟨index, h, _⟩
  · rw [hstored] at h; cases h
  · rw [hstored'] at h; cases h
  · rw [hlocal.item?_eq] at h; cases h

/-- In the second stage of a round each lane writes its own slot. -/
theorem apart_writeStage (k : Nat) : (writeStage n values k : Stage σ α).Apart callbacks lanes := by
  intro i _ j _ hne request hr other ho hclash
  obtain ⟨_, _, rfl⟩ := mem_writeStage hr
  obtain ⟨_, _, rfl⟩ := mem_writeStage ho
  rcases hclash with ⟨slot, h, h'⟩ | ⟨slot, h, h'⟩ | ⟨index, h, _⟩
  · exact hne ((Option.some.inj h).trans (Option.some.inj h').symm)
  · exact hne ((Option.some.inj h').trans (Option.some.inj h).symm)
  · cases h

/-- The slots hold the values after `k` rounds. -/
def Holds (n : Nat) (values : Nat → Nat → σ) (k : Nat) (sight : Sight σ) : Prop :=
  ∀ i < n, sight.slots[i]? = some (values k i)

/-- A lane that combines two slots in a round, up to its first barrier. -/
theorem segment_round_of_slots {k lane : Nat} {sight : Sight σ} {left right sum : σ}
    (h : distance k ≤ lane ∧ lane < n) (hleft : sight.slots[lane - distance k]? = some left)
    (hright : sight.slots[lane]? = some right) (hsum : callbacks.combine left right = .ok sum) :
    (round lane n (distance k) : Lane σ α Unit).segment callbacks sight =
      ([.load (lane - distance k), .load lane, .combine left right],
        .waiting (do Lane.store lane sum; Lane.sync)) := by
  have hleft : Request.answer callbacks (.load (lane - distance k) : Request σ α) sight = .ok left := by
    simp only [Request.answer, hleft]
  have hright : Request.answer callbacks (.load lane : Request σ α) sight = .ok right := by
    simp only [Request.answer, hright]
  have hsum : Request.answer callbacks (.combine left right : Request σ α) sight = .ok sum := hsum
  rw [round, if_pos h]
  exact Lane.Asks.segment_waiting (.one hleft (.one hright (.one hsum (.none ..))))

/-- Such a lane up to its second barrier. -/
theorem segment_store {lane : Nat} {sight : Sight σ} (h : lane < sight.slots.size) (sum : σ) :
    (do Lane.store lane sum; Lane.sync : Lane σ α Unit).segment callbacks sight =
      ([.store lane sum], .waiting (.done ())) := by
  have hstore : Request.answer callbacks (.store lane sum : Request σ α) sight = .ok () := if_pos h
  exact Lane.Asks.segment_waiting (.one hstore (.none ..))

/-- A lane of round `k` up to its first barrier. -/
theorem segment_round (hvalues : Values callbacks n values) {k : Nat} {sight : Sight σ}
    (hholds : Holds n values k sight) (lane : Nat) :
    (round lane n (distance k) : Lane σ α Unit).segment callbacks sight =
      (readStage n values k lane, .waiting (afterRead n values k lane)) := by
  unfold readStage afterRead
  by_cases h : distance k ≤ lane ∧ lane < n
  · rw [if_pos h, if_pos h]
    exact segment_round_of_slots h (hholds _ (Nat.lt_of_le_of_lt (Nat.sub_le ..) h.2)) (hholds lane h.2)
      (hvalues.combine k lane h.1 h.2)
  · rw [round, if_neg h, if_neg h, if_neg h]
    rfl

/-- A lane of a round up to its second barrier. -/
theorem segment_afterRead {k : Nat} {sight : Sight σ} (hsize : n ≤ sight.slots.size) (lane : Nat) :
    (afterRead n values k lane : Lane σ α Unit).segment callbacks sight =
      (writeStage n values k lane, .waiting (.done ())) := by
  unfold afterRead writeStage
  by_cases h : distance k ≤ lane ∧ lane < n
  · rw [if_pos h, if_pos h]
    exact segment_store (Nat.lt_of_lt_of_le h.2 hsize) _
  · rw [if_neg h, if_neg h]
    rfl

/-- The slots after the first stage of a round. -/
theorem slot_after_readStage (k : Nat) (sight : Sight σ) (slot : Nat) :
    (sight.after ((readStage n values k : Stage σ α).all lanes)).slots[slot]? =
      sight.slots[slot]? := by
  apply Sight.slot_after_of_not_stored
  intro request hr hs
  obtain ⟨lane, _, hr⟩ := Stage.mem_all.mp hr
  rw [(mem_readStage hr).2] at hs
  cases hs

/-- The slots after the second stage of a round. -/
theorem holds_after_writeStage (hvalues : Values callbacks n values) (hn : n ≤ lanes) {k : Nat}
    {sight : Sight σ} (hholds : Holds n values k sight) :
    Holds n values (k + 1) (sight.after ((writeStage n values k : Stage σ α).all lanes)) := by
  intro i hi
  have hsize : i < sight.slots.size := by
    obtain ⟨hlt, _⟩ := Array.getElem?_eq_some_iff.mp (hholds i hi)
    exact hlt
  by_cases h : distance k ≤ i
  · have hmem : (.store i (values (k + 1) i) : Request σ α) ∈ writeStage n values k i := by
      rw [writeStage, if_pos ⟨h, hi⟩]
      exact List.mem_singleton_self _
    have hapart : (writeStage n values k : Stage σ α).Apart callbacks lanes := apart_writeStage k
    rw [Stage.slot_after_all hapart (Nat.lt_of_lt_of_le hi hn) hmem rfl, writeStage, if_pos ⟨h, hi⟩]
    simp only [Sight.after_cons, Sight.after_nil, Request.see,
      Array.getElem?_setIfInBounds_self_of_lt hsize]
  · rw [Sight.slot_after_of_not_stored, hholds i hi, hvalues.stays k i (Nat.lt_of_not_le h)]
    intro request hr hs
    obtain ⟨lane, _, hr⟩ := Stage.mem_all.mp hr
    obtain ⟨hlane, _, rfl⟩ := mem_writeStage hr
    exact h (Option.some.inj hs ▸ hlane)

/-- A slot past the first `n` is not touched. -/
theorem slot_after_writeStage {k slot : Nat} (hslot : n ≤ slot) (sight : Sight σ) :
    (sight.after ((writeStage n values k : Stage σ α).all lanes)).slots[slot]? =
      sight.slots[slot]? := by
  apply Sight.slot_after_of_not_stored
  intro request hr hs
  obtain ⟨lane, _, hr⟩ := Stage.mem_all.mp hr
  obtain ⟨_, hlane, rfl⟩ := mem_writeStage hr
  obtain rfl := Option.some.inj hs
  exact absurd hlane (Nat.not_lt.mpr hslot)

/-- One round passes two barriers. -/
theorem reaches_round (lanes : Nat) (hvalues : Values callbacks n values) {k : Nat} {sight : Sight σ}
    (hholds : Holds n values k sight) (hsize : n ≤ sight.slots.size) :
    ∃ last, Block.Reaches callbacks lanes
      (fun lane => (round lane n (distance k) : Lane σ α Unit)) sight
      [readStage n values k, writeStage n values k] (fun _ => .done ()) last := by
  refine ⟨_, .pass (fun lane _ => segment_round hvalues hholds lane) (apart_readStage k)
    (.pass (fun lane _ => segment_afterRead ?_ lane) (apart_writeStage k) (.here ..))⟩
  rw [Sight.size_after]
  exact hsize

/-- What a scan leaves: the last of the values in the first slots, and the others as they were. -/
structure Scanned (n : Nat) (values : Nat → Nat → σ) (k : Nat) (before after : Sight σ) : Prop where
  holds : Holds n values k after
  size : after.slots.size = before.slots.size
  others : ∀ slot, n ≤ slot → after.slots[slot]? = before.slots[slot]?
  calls : after.calls = before.calls

theorem Scanned.refl {k : Nat} {sight : Sight σ} (h : Holds n values k sight) :
    Scanned n values k sight sight :=
  ⟨h, rfl, fun _ _ => rfl, rfl⟩

/-- One scan of some rounds, and then the next ones. -/
theorem Scanned.trans {k more : Nat} {before middle after : Sight σ} (h : Scanned n values k before middle)
    (h' : Scanned n values more middle after) : Scanned n values more before after :=
  ⟨h'.holds, h'.size.trans h.size, fun slot hslot => (h'.others slot hslot).trans (h.others slot hslot),
    h'.calls.trans h.calls⟩

/-- What a scan leaves in the slots is determined. -/
theorem Scanned.slots_eq {k : Nat} {before after after' : Sight σ} (h : Scanned n values k before after)
    (h' : Scanned n values k before after') : after.slots = after'.slots := by
  apply Array.ext_getElem?
  intro slot
  by_cases hslot : slot < n
  · rw [h.holds slot hslot, h'.holds slot hslot]
  · rw [h.others slot (Nat.le_of_not_lt hslot), h'.others slot (Nat.le_of_not_lt hslot)]

theorem scanned_round (hvalues : Values callbacks n values) (hn : n ≤ lanes) {k : Nat}
    {sight : Sight σ} (hholds : Holds n values k sight) :
    Scanned n values (k + 1) sight ((sight.after ((readStage n values k : Stage σ α).all lanes)).after
      ((writeStage n values k : Stage σ α).all lanes)) := by
  refine ⟨holds_after_writeStage hvalues hn fun i hi => ?_, ?_, fun slot hslot => ?_, ?_⟩
  · rw [slot_after_readStage]
    exact hholds i hi
  · rw [Sight.size_after, Sight.size_after]
  · rw [slot_after_writeStage hslot, slot_after_readStage]
  · rw [Sight.calls_after_of_no_item, Sight.calls_after_of_no_item]
    · intro request hr
      obtain ⟨lane, _, hr⟩ := Stage.mem_all.mp hr
      exact (mem_readStage hr).1.item?_eq
    · intro request hr
      obtain ⟨lane, _, hr⟩ := Stage.mem_all.mp hr
      rw [(mem_writeStage hr).2.2]
      rfl

/-- The rounds from one of them on. -/
theorem reaches_rounds (hvalues : Values callbacks n values) (hn : n ≤ lanes) (rounds : Nat) :
    ∀ (k : Nat) (sight : Sight σ), Holds n values k sight → n ≤ sight.slots.size →
      ∃ last, Block.Reaches callbacks lanes
        (fun lane => (Lane.forEach ((List.range' k rounds).map (Nat.pow 2)) (round lane n) :
          Lane σ α Unit)) sight (stages n values k rounds) (fun _ => .done ()) last ∧
        Scanned n values (k + rounds) sight last := by
  induction rounds with
  | zero => exact fun k sight hholds _ => ⟨sight, .here .., .refl hholds⟩
  | succ rounds ih =>
    intro k sight hholds hsize
    obtain ⟨middle, hround⟩ := reaches_round (α := α) lanes hvalues hholds hsize
    have hscanned := scanned_round (α := α) hvalues hn hholds
    have hmiddle := hround.last_eq
    simp only [List.flatMap_cons, List.flatMap_nil, List.append_nil, Sight.after_append] at hmiddle
    rw [← hmiddle] at hscanned
    obtain ⟨last, hrest, hlast⟩ :=
      ih (k + 1) middle hscanned.holds (by rw [hscanned.size]; exact hsize)
    refine ⟨last, hround.seq (f := fun lane _ => Lane.forEach
      ((List.range' (k + 1) rounds).map (Nat.pow 2)) (round lane n)) hrest, ?_⟩
    have hcount : k + (rounds + 1) = k + 1 + rounds := by omega
    rw [hcount]
    exact hscanned.trans hlast

/-- The rounds of a scan that is not too wide. -/
theorem scanFirst_eq (geometry : Geometry) (block lane : Nat) {slots : Nat} (hn : n ≤ geometry.threads)
    (hslots : n ≤ slots) :
    (scanFirst (geometry.context block lane) slots n : Lane σ α Unit) =
      Lane.forEach ((List.range' 0 (roundCount n)).map (Nat.pow 2)) (round lane n) := by
  rw [scanFirst, if_pos ⟨hslots, hn⟩, distances, List.range_eq_range']
  rfl

/-- **A scan passes the barriers of its rounds** and leaves the last of the values. -/
theorem reaches_scanFirst (hvalues : Values callbacks n values) (geometry : Geometry) (block : Nat)
    (hn : n ≤ geometry.threads) {sight : Sight σ} (hholds : Holds n values 0 sight) {slots : Nat}
    (hsize : sight.slots.size = slots) (hslots : n ≤ slots) :
    ∃ last, Block.Reaches callbacks geometry.threads
      (fun lane => (scanFirst (geometry.context block lane) slots n : Lane σ α Unit)) sight
      (stages n values 0 (roundCount n)) (fun _ => .done ()) last ∧
      Scanned n values (roundCount n) sight last := by
  obtain ⟨last, hreaches, hscanned⟩ := reaches_rounds (α := α) hvalues hn (roundCount n) 0 sight
    hholds (by rw [hsize]; exact hslots)
  rw [Nat.zero_add] at hscanned
  rw [funext fun lane => scanFirst_eq geometry block lane hn hslots]
  exact ⟨last, hreaches, hscanned⟩

end BlockScan

end BlockMachine
