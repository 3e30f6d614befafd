import BlockMachine.Proofs.BlockScan.Sums
import BlockMachine.Proofs.Lane.Items
import BlockMachine.Proofs.Memory.Writes

/-!
# Chunks in the slots of a block

Before the lanes of a block scan a chunk they lay it out in the slots, one item for each lane.

* `BlockScan.layStage` — what they ask for that; no two lanes clash, and each item of the chunk is asked for
  once.
* `BlockScan.Gives` — the caller's view gives certain items of an interval.
* `BlockScan.slot_after_layStage` — what the slots hold then.
-/

set_option autoImplicit false

namespace BlockMachine

open Request

/-- The requests of one more lane. -/
theorem Stage.all_succ {σ α : Type} (stage : Stage σ α) (lanes : Nat) :
    stage.all (lanes + 1) = stage.all lanes ++ stage lanes := by
  simp [all, List.range_succ]

/-- A stage in which only the first lane asks anything. -/
theorem Stage.all_of_first {σ α : Type} {lanes : Nat} (hlanes : 0 < lanes) {stage : Stage σ α}
    (h : ∀ lane, lane ≠ 0 → stage lane = []) : stage.all lanes = stage 0 := by
  obtain ⟨more, rfl⟩ := Nat.exists_eq_succ_of_ne_zero (Nat.ne_of_gt hlanes)
  rw [all, List.range_succ_eq_map, List.flatMap_cons, List.flatMap_map,
    List.flatMap_eq_nil_iff.mpr fun lane _ => h _ (Nat.succ_ne_zero lane), List.append_nil]

namespace BlockScan

variable {σ α : Type} {callbacks : Callbacks σ α} {items : Nat → σ} {start stop n lanes : Nat}
  {blank : Option σ}

/-- The view gives certain items of an interval to those who ask for them next. -/
def Gives (callbacks : Callbacks σ α) (items : Nat → σ) (start stop : Nat) (calls : Array Nat) : Prop :=
  ∀ index, start ≤ index → index < stop →
    callbacks.fetch index (calls[index]?.getD 0) = .ok (items index)

/-- What the lanes ask to lay out a chunk of `n` items.  Lanes past the chunk store `blank`, if there is
one. -/
def layStage (items : Nat → σ) (start n : Nat) (blank : Option σ) : Stage σ α := fun lane =>
  if lane < n then [.fetch (start + lane), .store lane (items (start + lane))]
  else blank.toList.map fun value => .store lane value

/-- A request of a lane that lays out its item: it is about this item and the lane's own slot, and nothing
is written, cloned or noted. -/
structure LaysItem (start lane : Nat) (request : Request σ α) : Prop where
  silent : request.Silent
  slot : ∀ slot, request.slot? = some slot → slot = lane
  item : ∀ index, request.item? = some index → index = start + lane
  cloned?_eq : request.cloned? = none
  noted?_eq : request.noted? = none

theorem laysItem_fetch (start lane : Nat) :
    LaysItem start lane (.fetch (start + lane) : Request σ α) :=
  ⟨trivial, nofun, fun _ h => (Option.some.inj h).symm, rfl, rfl⟩

theorem laysItem_store (start lane : Nat) (value : σ) :
    LaysItem start lane (.store lane value : Request σ α) :=
  ⟨trivial, fun _ h => (Option.some.inj h).symm, nofun, rfl, rfl⟩

theorem mem_layStage {lane : Nat} {request : Request σ α}
    (h : request ∈ layStage items start n blank lane) : LaysItem start lane request := by
  unfold layStage at h
  split at h
  · rcases List.mem_cons.mp h with rfl | h
    · exact laysItem_fetch start lane
    · rw [List.mem_singleton.mp h]
      exact laysItem_store start lane _
  · obtain ⟨value, _, rfl⟩ := List.mem_map.mp h
    exact laysItem_store start lane value

theorem apart_layStage : (layStage items start n blank : Stage σ α).Apart callbacks lanes := by
  intro i _ j _ hne request hr other ho hclash
  have hlays := mem_layStage hr
  have hlays' := mem_layStage ho
  rcases hclash with ⟨slot, h, h'⟩ | ⟨slot, h, h'⟩ | ⟨index, h, h', _⟩
  · exact hne ((hlays.slot slot (slot?_of_stored? h)).symm.trans (hlays'.slot slot h'))
  · exact hne ((hlays.slot slot h').symm.trans (hlays'.slot slot (slot?_of_stored? h)))
  · have hi := hlays.item index h
    have hj := hlays'.item index h'
    omega

/-- **Each item of a chunk is asked for once.** -/
theorem asksEach_layStage (hn : n ≤ lanes) :
    AsksEach start (start + n) ((layStage items start n blank : Stage σ α).all lanes) := by
  have hone : ∀ lane index, asked index (layStage items start n blank lane : List (Request σ α)) =
      if lane < n ∧ index = start + lane then 1 else 0 := by
    intro lane index
    unfold layStage
    by_cases hlane : lane < n
    · by_cases hindex : index = start + lane
      · simp [hlane, hindex, asked, item?]
      · have hne : ¬ start + lane = index := fun h => hindex h.symm
        simp [hlane, hindex, hne, asked, item?]
    · rw [if_neg hlane, if_neg (fun h => hlane h.1)]
      apply asked_of_no_item
      intro request hr
      obtain ⟨value, _, rfl⟩ := List.mem_map.mp hr
      rfl
  have hfront : ∀ lanes index,
      asked index ((layStage items start n blank : Stage σ α).all lanes) =
        if start ≤ index ∧ index < start + min n lanes then 1 else 0 := by
    intro lanes index
    induction lanes with
    | zero => rw [Nat.min_zero, if_neg (by omega)]; rfl
    | succ lanes ih =>
      rw [Stage.all_succ, asked_append, ih, hone]
      by_cases hlane : lanes < n ∧ index = start + lanes
      · rw [if_pos hlane, if_neg (by omega), if_pos (by omega)]
      · rw [if_neg hlane, Nat.add_zero]
        by_cases hin : start ≤ index ∧ index < start + min n lanes
        · rw [if_pos hin, if_pos (by omega)]
        · rw [if_neg hin, if_neg (by omega)]
  intro index
  rw [hfront lanes index, Nat.min_eq_left hn]

/-- **The slots after a chunk has been laid out.** -/
theorem slot_after_layStage (callbacks : Callbacks σ α) (items : Nat → σ) (start n : Nat)
    (blank : Option σ) {lane : Nat} (hlane : lane < lanes) {sight : Sight σ}
    (hsize : lane < sight.slots.size) :
    (lane < n → (sight.after ((layStage items start n blank : Stage σ α).all lanes)).slots[lane]? =
      some (items (start + lane))) ∧
    ∀ value, n ≤ lane → blank = some value →
      (sight.after ((layStage items start n blank : Stage σ α).all lanes)).slots[lane]? =
        some value := by
  have hapart : (layStage items start n blank : Stage σ α).Apart callbacks lanes := apart_layStage
  have hown : ∀ value, (.store lane value : Request σ α) ∈ layStage items start n blank lane →
      (sight.after ((layStage items start n blank : Stage σ α).all lanes)).slots[lane]? =
        (sight.after (layStage items start n blank lane : List (Request σ α))).slots[lane]? :=
    fun value hmem => Stage.slot_after_all hapart hlane hmem rfl sight
  constructor
  · intro hlt
    have hstage : (layStage items start n blank lane : List (Request σ α)) =
        [.fetch (start + lane), .store lane (items (start + lane))] := if_pos hlt
    rw [hown (items (start + lane)) (by rw [hstage]; simp), hstage]
    simp only [Sight.after_cons, Sight.after_nil, Request.see,
      Array.getElem?_setIfInBounds_self_of_lt hsize]
  · rintro value hle rfl
    have hstage : (layStage items start n (some value) lane : List (Request σ α)) =
        [.store lane value] := if_neg (Nat.not_lt.mpr hle)
    rw [hown value (by rw [hstage]; simp), hstage]
    simp only [Sight.after_cons, Sight.after_nil, Request.see,
      Array.getElem?_setIfInBounds_self_of_lt hsize]

/-- A lane that asks for its item and stores it. -/
theorem asks_lay {β : Type} {lane : Nat} {sight : Sight σ} (hgives : Gives callbacks items start stop
      sight.calls) (hlane : start + lane < stop) (hsize : lane < sight.slots.size)
    (hlimit : stop ≤ Word.limit) (rest : Nat → σ → Lane σ α β) :
    Lane.Asks callbacks (do
      let index ← Lane.ofExcept (Word.add start lane)
      let value ← Lane.fetch index
      Lane.store lane value
      rest index value) sight
      [.fetch (start + lane), .store lane (items (start + lane))]
      (rest (start + lane) (items (start + lane))) := by
  have hindex : Word.add start lane = .ok (start + lane) :=
    Word.add_eq_ok (Nat.lt_of_lt_of_le hlane hlimit)
  have hfetch : Request.answer callbacks (.fetch (start + lane) : Request σ α) sight =
      .ok (items (start + lane)) := hgives _ (Nat.le_add_right _ _) hlane
  have hstore : ∀ calls : Array Nat, Request.answer callbacks
      (.store lane (items (start + lane)) : Request σ α) ⟨sight.slots, calls⟩ = .ok () :=
    fun calls => if_pos hsize
  exact (Lane.asks_ofExcept hindex sight).seq (.one hfetch (.one (hstore _) (.none ..)))

/-- What has been given is not asked for again. -/
theorem Gives.after {middle : Nat} {requests : List (Request σ α)} {sight : Sight σ}
    (h : Gives callbacks items start stop sight.calls) (hasks : AsksEach start middle requests)
    (hle : start ≤ middle) : Gives callbacks items middle stop (sight.after requests).calls := by
  intro index hmiddle hstop
  have hcalls := Sight.calls_after_asksEach hasks sight index
  have hnot : ¬ (start ≤ index ∧ index < middle) := by omega
  rw [if_neg hnot] at hcalls
  rw [hcalls, ← h index (by omega) hstop]
  cases sight.calls[index]? <;> rfl

end BlockScan

end BlockMachine
