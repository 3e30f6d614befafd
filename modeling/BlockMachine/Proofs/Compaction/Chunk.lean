import BlockMachine.Compaction
import BlockMachine.Proofs.BlockCopy.Writes
import BlockMachine.Proofs.BlockScan.Chunk
import BlockMachine.Proofs.Compaction.Selected

/-!
# A chunk of a compaction

The lanes lay the flags of a chunk out and scan them; then each lane knows the rank of its element and moves
it, or all lanes move the whole chunk together.

* `Compaction.Setting` — what the blocks of the writing launch rely on.
* `Compaction.asks_scatter` — a lane moves its element, unless its place is past the end.
* `Compaction.writes_scatter` — all lanes together write what the chunk selects.
* `Compaction.asks_move` — a lane takes part in the move of a full chunk, unless it is blocked.
-/

set_option autoImplicit false

namespace BlockMachine

open Request BlockScan

namespace Compaction

variable {α : Type} {callbacks : Callbacks Nat α} {task : Task α} {items : Nat → Nat}

/-- What the blocks of the writing launch rely on, if the flags are `items` and a block has `width` lanes. -/
structure Setting (callbacks : Callbacks Nat α) (task : Task α) (items : Nat → Nat) (width : Nat) :
    Prop where
  combine : callbacks.combine = Word.add
  element : callbacks.element = task.element
  clone : ∀ value, ∃ copy, task.element.clone value = .ok copy
  flags : ∀ index, items index ≤ 1
  output : task.output = .whole task.output.address task.element.size task.output.length
  bytes : task.output.length * task.element.size < Word.limit
  room : task.input.length + width < Word.limit

/-! ## The flags of the lanes -/

/-- The flag of a lane in a chunk of `n` elements from number `base` on; lanes past it have 0. -/
def laneFlag (items : Nat → Nat) (base n lane : Nat) : Nat := if lane < n then items (base + lane) else 0

theorem total_laneFlag (items : Nat → Nat) (base n count : Nat) :
    total (laneFlag items base n) count = total (fun i => items (base + i)) (min count n) := by
  induction count with
  | zero => rw [Nat.zero_min, total_zero, total_zero]
  | succ count ih =>
    rw [total_succ, ih]
    by_cases h : count < n
    · rw [Nat.min_eq_left h, Nat.min_eq_left (Nat.le_of_lt h), total_succ, laneFlag, if_pos h]
    · rw [Nat.min_eq_right (by omega), Nat.min_eq_right (by omega), laneFlag, if_neg h, Nat.add_zero]

theorem laneFlag_le (hflags : ∀ index, items index ≤ 1) (base n lane : Nat) :
    laneFlag items base n lane ≤ 1 := by
  unfold laneFlag
  split
  · exact hflags _
  · exact Nat.zero_le _

/-- The first lanes select no more elements than they are, and than there are in the chunk. -/
theorem total_laneFlag_le (hflags : ∀ index, items index ≤ 1) (base n count : Nat) :
    total (laneFlag items base n) count ≤ min count n := by
  rw [total_laneFlag]
  exact total_le hflags _ _

theorem lt_of_laneFlag_ne_zero {base n lane : Nat} (h : laneFlag items base n lane ≠ 0) : lane < n := by
  refine Nat.lt_of_not_le fun hle => h ?_
  rw [laneFlag, if_neg (Nat.not_lt.mpr hle)]

/-- The rank of a selected lane, counted from 1. -/
theorem total_succ_of_ne_zero (hflags : ∀ index, items index ≤ 1) {base n lane : Nat}
    (hflag : laneFlag items base n lane ≠ 0) :
    total (laneFlag items base n) (lane + 1) = total (laneFlag items base n) lane + 1 := by
  have hle := laneFlag_le hflags base n lane
  rw [total_succ]
  omega

/-- The last selected lane. -/
theorem exists_last (hflags : ∀ index, items index ≤ 1) {base n lanes : Nat}
    (h : 0 < total (laneFlag items base n) lanes) :
    ∃ lane < lanes, laneFlag items base n lane ≠ 0 ∧
      total (laneFlag items base n) lane + 1 = total (laneFlag items base n) lanes := by
  induction lanes with
  | zero => exact absurd h (Nat.lt_irrefl 0)
  | succ lanes ih =>
    by_cases hflag : laneFlag items base n lanes = 0
    · rw [total_succ, hflag, Nat.add_zero] at h ⊢
      obtain ⟨lane, hlane, hlast⟩ := ih h
      exact ⟨lane, Nat.lt_succ_of_lt hlane, hlast⟩
    · exact ⟨lanes, Nat.lt_succ_self lanes, hflag, (total_succ_of_ne_zero hflags hflag).symm⟩

/-! ## One element -/

/-- What a lane asks to move an element to a place. -/
def placeRequests (task : Task α) (place index : Nat) : List (Request Nat α) :=
  match task.input.values[index]? with
  | none => []
  | some value =>
    match task.element.clone value with
    | .error _ => [.clone value]
    | .ok copy => .clone value :: if place < task.output.length then [.write place copy] else []

/-- What a lane asks to move its element, if that is selected. -/
def scatterRequests (task : Task α) (items : Nat → Nat) (out base n lane : Nat) :
    List (Request Nat α) :=
  if laneFlag items base n lane = 0 then []
  else .load lane :: placeRequests task (out + total (laneFlag items base n) lane) (base + lane)

/-- Whether the element of a lane is selected and its place is past the end. -/
def PastEnd (task : Task α) (items : Nat → Nat) (out base n lane : Nat) : Prop :=
  laneFlag items base n lane ≠ 0 ∧
    task.output.length ≤ out + total (laneFlag items base n) lane

theorem mem_scatterRequests {out base n lane : Nat} {request : Request Nat α}
    (h : request ∈ scatterRequests task items out base n lane) :
    request.stored? = none ∧ request.item? = none ∧ request.Whole := by
  unfold scatterRequests placeRequests at h
  split at h
  · cases h
  · rcases List.mem_cons.mp h with rfl | h
    · exact ⟨rfl, rfl, trivial⟩
    · split at h
      · cases h
      · split at h
        · rw [List.mem_singleton.mp h]
          exact ⟨rfl, rfl, trivial⟩
        · rcases List.mem_cons.mp h with rfl | h
          · exact ⟨rfl, rfl, trivial⟩
          · split at h
            · rw [List.mem_singleton.mp h]
              exact ⟨rfl, rfl, trivial⟩
            · cases h

/-- A lane clones only its own element, and only if that is selected. -/
theorem cloned_of_mem_scatterRequests {out base n lane : Nat} {request : Request Nat α}
    (h : request ∈ scatterRequests task items out base n lane) {value : α}
    (hvalue : request.cloned? = some value) : value ∈ selected items task.input.values base n := by
  unfold scatterRequests at h
  by_cases hflag : laneFlag items base n lane = 0
  · rw [if_pos hflag] at h
    cases h
  · have hlane := lt_of_laneFlag_ne_zero hflag
    rw [if_neg hflag] at h
    rw [laneFlag, if_pos hlane] at hflag
    rcases List.mem_cons.mp h with rfl | h
    · cases hvalue
    · unfold placeRequests at h
      cases hitem : task.input.values[base + lane]? with
      | none =>
        rw [hitem] at h
        cases h
      | some item =>
        have hmem : item ∈ selected items task.input.values base n :=
          mem_selected.mpr ⟨base + lane, Nat.le_add_right .., Nat.add_lt_add_left hlane base, hflag, hitem⟩
        simp only [hitem] at h
        split at h
        · rw [List.mem_singleton.mp h] at hvalue
          cases hvalue
          exact hmem
        · rcases List.mem_cons.mp h with rfl | h
          · cases hvalue
            exact hmem
          · split at h
            · rw [List.mem_singleton.mp h] at hvalue
              cases hvalue
            · cases h

theorem apart_scatter {out base n lanes : Nat} :
    Stage.Apart callbacks lanes (scatterRequests task items out base n) :=
  Stage.apart_of_quiet fun _ _ _ hr => ⟨(mem_scatterRequests hr).1, (mem_scatterRequests hr).2.1⟩

section Lanes

variable {width out base n : Nat} (setting : Setting callbacks task items width)

include setting

/-- A write that is not past the end. -/
theorem asks_write {place : Nat} (hplace : place < task.output.length) (copy : α) (sight : Sight Nat) :
    Lane.Asks callbacks (task.output.write place copy) sight [.write place copy] (.done ()) := by
  have hquotient : task.output.position / task.output.cell = 0 := by
    rw [setting.output]
    exact Nat.zero_div _
  unfold WriteView.write
  rw [if_pos hplace, hquotient, Nat.zero_add]
  exact .one rfl (.none ..)

/-- A lane that knows its rank clones its element, and then writes it to its place. -/
theorem asks_clone (context : LaneContext) (hlast : base + n ≤ task.input.length) (hout : out ≤ base)
    (hflag : laneFlag items base n context.lane ≠ 0) {sight : Sight Nat}
    (hrank : sight.slots[context.lane]? = some (total (laneFlag items base n) (context.lane + 1)))
    {value copy : α} (hvalue : task.input.values[base + context.lane]? = some value)
    (hcopy : task.element.clone value = .ok copy) :
    Lane.Asks callbacks (scatter task context out (base + context.lane)) sight
      [.load context.lane, .clone value]
      (task.output.write (out + total (laneFlag items base n) context.lane) copy) := by
  have hlane := lt_of_laneFlag_ne_zero hflag
  have hroom := setting.room
  have hsucc := total_succ_of_ne_zero setting.flags hflag
  have hle := total_laneFlag_le setting.flags base n context.lane
  have hload : Request.answer callbacks (.load context.lane : Request Nat α) sight =
      .ok (total (laneFlag items base n) context.lane + 1) := by
    simp only [Request.answer, hrank, hsucc]
  have hadd : Word.add out (total (laneFlag items base n) context.lane + 1) =
      .ok (out + (total (laneFlag items base n) context.lane + 1)) := Word.add_eq_ok (by omega)
  have hsub : Word.sub (out + (total (laneFlag items base n) context.lane + 1)) 1 =
      .ok (out + total (laneFlag items base n) context.lane) := Word.sub_eq_ok (by omega)
  have hget : task.input.get (base + context.lane) = .ok value := by
    simp only [Placed.get, hvalue]
  have hclone : ∀ sight, Request.answer callbacks (.clone value : Request Nat α) sight = .ok copy := by
    intro sight
    rw [← hcopy, ← setting.element]
    rfl
  exact .one hload ((Lane.asks_ofExcept hadd _).seq ((Lane.asks_ofExcept hsub _).seq
    ((Lane.asks_ofExcept hget _).seq (.one (hclone _) (.none ..)))))

/-- **A selected lane moves its element**, unless its place is past the end. -/
theorem asks_scatter (context : LaneContext) (hlast : base + n ≤ task.input.length) (hout : out ≤ base)
    (hflag : laneFlag items base n context.lane ≠ 0) {sight : Sight Nat}
    (hrank : sight.slots[context.lane]? = some (total (laneFlag items base n) (context.lane + 1))) :
    Lane.AsksUnless callbacks (PastEnd task items out base n context.lane)
      (scatter task context out (base + context.lane)) sight
      (scatterRequests task items out base n context.lane) (.done ()) := by
  have hlane := lt_of_laneFlag_ne_zero hflag
  have hsize : task.input.length = task.input.values.size := rfl
  have hvalue : task.input.values[base + context.lane]? =
      some task.input.values[base + context.lane] := Array.getElem?_eq_getElem (by omega)
  obtain ⟨copy, hcopy⟩ := setting.clone task.input.values[base + context.lane]
  have hstart := asks_clone setting context hlast hout hflag hrank hvalue hcopy
  unfold scatterRequests placeRequests
  rw [if_neg hflag, hvalue]
  simp only [hcopy]
  by_cases hfits : out + total (laneFlag items base n) context.lane < task.output.length
  · rw [if_pos hfits]
    exact (hstart.trans (asks_write setting hfits copy _)).unless
      fun hpast => absurd hfits (Nat.not_lt.mpr hpast.2)
  · rw [if_neg hfits]
    have hfault : task.output.write (out + total (laneFlag items base n) context.lane) copy =
        (.fault (.writeOutOfRange (out + total (laneFlag items base n) context.lane)
          task.output.length) : Lane Nat α Unit) := if_neg hfits
    rw [hfault] at hstart
    exact hstart.unless_of_blocked rfl ⟨hflag, Nat.le_of_not_lt hfits⟩ _

/-- A lane writes its element to its place, if that is not past the end. -/
theorem writes_one {lane : Nat} (hflag : laneFlag items base n lane ≠ 0) {value : α}
    (hvalue : task.input.values[base + lane]? = some value)
    (hplace : out + total (laneFlag items base n) lane < task.output.length) :
    Writes task.element (out + total (laneFlag items base n) lane) [value]
      (scatterRequests task items out base n lane) := by
  obtain ⟨copy, hcopy⟩ := setting.clone value
  have hrequests : scatterRequests task items out base n lane =
      [.load lane, .clone value] ++ [.write (out + total (laneFlag items base n) lane) copy] := by
    simp only [scatterRequests, placeRequests, if_neg hflag, hvalue, hcopy, if_pos hplace]
    rfl
  rw [hrequests]
  refine (Writes.write (.inr hcopy) fun _ => rfl).silent_append fun request hr => ?_
  rcases List.mem_cons.mp hr with rfl | hr
  · trivial
  · rw [List.mem_singleton.mp hr]
    trivial

/-- **All lanes together move the selected elements** of a chunk, each to its place. -/
theorem writes_scatter (hlast : base + n ≤ task.input.length)
    (hfits : out + total (laneFlag items base n) n ≤ task.output.length) {lanes : Nat}
    (hlanes : n ≤ lanes) :
    Writes task.element out (selected items task.input.values base n)
      ((List.range lanes).flatMap (scatterRequests task items out base n)) := by
  have hsize : task.input.length = task.input.values.size := rfl
  have hfront : ∀ lanes, Writes task.element out
      (selected items task.input.values base (min lanes n))
      ((List.range lanes).flatMap (scatterRequests task items out base n)) := by
    intro lanes
    induction lanes with
    | zero =>
      rw [Nat.zero_min]
      exact .of_silent _ fun _ hr => absurd hr List.not_mem_nil
    | succ lanes ih =>
      rw [List.range_succ, List.flatMap_append, List.flatMap_singleton]
      by_cases hflag : laneFlag items base n lanes = 0
      · have hnone : scatterRequests task items out base n lanes = [] := if_pos hflag
        have hsame : selected items task.input.values base (min (lanes + 1) n) =
            selected items task.input.values base (min lanes n) := by
          by_cases hlane : lanes < n
          · rw [Nat.min_eq_left hlane, Nat.min_eq_left (Nat.le_of_lt hlane)]
            rw [laneFlag, if_pos hlane] at hflag
            exact selected_succ_of_zero hflag
          · rw [Nat.min_eq_right (by omega), Nat.min_eq_right (by omega)]
        rw [hnone, List.append_nil, hsame]
        exact ih
      · have hlane := lt_of_laneFlag_ne_zero hflag
        have hitem : items (base + lanes) ≠ 0 := by rwa [laneFlag, if_pos hlane] at hflag
        have hvalue : task.input.values[base + lanes]? = some task.input.values[base + lanes] :=
          Array.getElem?_eq_getElem (by omega)
        have hrank : (selected items task.input.values base lanes).length =
            total (laneFlag items base n) lanes := by
          rw [length_selected setting.flags (by omega), total_laneFlag,
            Nat.min_eq_left (Nat.le_of_lt hlane)]
        have hplace : out + total (laneFlag items base n) lanes < task.output.length := by
          have hsucc := total_succ_of_ne_zero setting.flags hflag
          have hmono : total (laneFlag items base n) (lanes + 1) ≤ total (laneFlag items base n) n :=
            total_mono _ hlane
          omega
        have hone := writes_one setting hflag hvalue hplace
        rw [Nat.min_eq_left hlane, selected_succ_of_ne_zero hitem hvalue]
        rw [Nat.min_eq_left (Nat.le_of_lt hlane)] at ih
        exact ih.append (by rwa [hrank])
  have hall := hfront lanes
  rwa [Nat.min_eq_right hlanes] at hall

end Lanes

/-! ## A full chunk -/

/-- How a lane ends a full chunk. -/
def endChunk (out selected : Nat) : Lane Nat α Nat := do
  let outNext ← Lane.ofExcept (Word.add out selected)
  Lane.sync
  return outNext

/-- What a lane does in a full chunk once it knows how many elements are selected. -/
def moveSelected (task : Task α) (context : LaneContext) (out base flag selected : Nat) :
    Lane Nat α Nat := do
  if selected = context.blockSize then do
    let source ← Lane.ofExcept
      (task.input.slice task.element.size base (base + context.blockSize))
    let _ ← BlockCopy.copy task.element context source task.output out
  else if flag ≠ 0 then scatter task context out (base + context.lane)
  let outNext ← Lane.ofExcept (Word.add out selected)
  Lane.sync
  return outNext

/-- What a lane does in a full chunk once the flags are scanned. -/
def move (task : Task α) (context : LaneContext) (out base flag : Nat) : Lane Nat α Nat := do
  let last ← Lane.ofExcept (Word.sub context.blockSize 1)
  let selected ← Lane.load last
  moveSelected task context out base flag selected

theorem moveSelected_full (task : Task α) (context : LaneContext) (out base flag : Nat) :
    moveSelected task context out base flag context.blockSize = (do
      let source ← Lane.ofExcept
        (task.input.slice task.element.size base (base + context.blockSize))
      let _ ← BlockCopy.copy task.element context source task.output out
      endChunk out context.blockSize) := by
  unfold moveSelected
  rw [if_pos rfl]
  rfl

theorem moveSelected_of_zero (task : Task α) (context : LaneContext) (out base : Nat) {selected : Nat}
    (h : selected ≠ context.blockSize) :
    moveSelected task context out base 0 selected = endChunk out selected := by
  unfold moveSelected
  rw [if_neg h, if_neg (not_not_intro rfl)]
  rfl

theorem moveSelected_of_ne_zero (task : Task α) (context : LaneContext) (out base : Nat)
    {flag selected : Nat} (h : selected ≠ context.blockSize) (hflag : flag ≠ 0) :
    moveSelected task context out base flag selected = (do
      scatter task context out (base + context.lane)
      endChunk out selected) := by
  unfold moveSelected
  rw [if_neg h, if_pos hflag]
  rfl

/-- The elements of a full chunk, at the place where they lie. -/
def chunkSource (task : Task α) (width base : Nat) : Placed α :=
  ⟨task.input.values.extract base (base + width), task.input.address + base * task.element.size⟩

/-- What a lane asks in a full chunk once it knows how many elements are selected. -/
def moveRequests (task : Task α) (items : Nat → Nat) (geometry : Geometry) (block out base lane : Nat) :
    List (Request Nat α) :=
  if total (laneFlag items base geometry.threads) geometry.threads = geometry.threads then
    if out + geometry.threads ≤ task.output.length then
      BlockCopy.copyRequests task.element (geometry.context block lane)
        (chunkSource task geometry.threads base) (task.output.dropped out)
    else []
  else scatterRequests task items out base geometry.threads lane

/-- What a lane asks in a full chunk once the flags are scanned. -/
def moveStage (task : Task α) (items : Nat → Nat) (geometry : Geometry) (block out base : Nat) :
    Stage Nat α := fun lane =>
  .load (geometry.threads - 1) :: moveRequests task items geometry block out base lane

/-- Whether a lane cannot move its part of a full chunk: the chunk is moved as a whole and does not fit, or
the place of its element is past the end. -/
def Blocked (task : Task α) (items : Nat → Nat) (width out base lane : Nat) : Prop :=
  if total (laneFlag items base width) width = width then task.output.length < out + width
  else PastEnd task items out base width lane

/-- No lane is blocked if the selected elements fit. -/
theorem not_blocked_of_fits {width out base lane : Nat} (setting : Setting callbacks task items width)
    (hlane : lane < width)
    (hfits : out + total (laneFlag items base width) width ≤ task.output.length) :
    ¬ Blocked task items width out base lane := by
  unfold Blocked
  by_cases hfull : total (laneFlag items base width) width = width
  · rw [if_pos hfull]
    omega
  · rw [if_neg hfull]
    rintro ⟨hflag, hpast⟩
    have hsucc := total_succ_of_ne_zero setting.flags hflag
    have hmono : total (laneFlag items base width) (lane + 1) ≤ total (laneFlag items base width) width :=
      total_mono _ hlane
    omega

/-- Some lane is blocked if they do not. -/
theorem exists_blocked {width out base : Nat} (setting : Setting callbacks task items width)
    (hwidth : 0 < width) (hstart : out ≤ task.output.length)
    (hfits : task.output.length < out + total (laneFlag items base width) width) :
    ∃ lane < width, Blocked task items width out base lane := by
  unfold Blocked
  by_cases hfull : total (laneFlag items base width) width = width
  · refine ⟨0, hwidth, ?_⟩
    rw [if_pos hfull]
    omega
  · obtain ⟨lane, hlane, hflag, hlast⟩ :=
      exists_last setting.flags (by omega : 0 < total (laneFlag items base width) width)
    refine ⟨lane, hlane, ?_⟩
    rw [if_neg hfull]
    exact ⟨hflag, by omega⟩

theorem mem_moveStage {geometry : Geometry} {block out base lane : Nat} {request : Request Nat α}
    (h : request ∈ moveStage task items geometry block out base lane) :
    request.stored? = none ∧ request.item? = none ∧
      (BlockCopy.ByElement task.element geometry.wideCopy → request.Whole) := by
  rcases List.mem_cons.mp h with rfl | h
  · exact ⟨rfl, rfl, fun _ => trivial⟩
  · unfold moveRequests at h
    split at h
    · split at h
      · obtain ⟨hslot, hitem, hwhole⟩ := BlockCopy.mem_copyRequests h
        exact ⟨stored?_eq_none hslot, hitem, hwhole⟩
      · cases h
    · obtain ⟨hslot, hitem, hwhole⟩ := mem_scatterRequests h
      exact ⟨hslot, hitem, fun _ => hwhole⟩

/-- A full chunk clones only what is selected. -/
theorem cloned_of_mem_moveStage (hflags : ∀ index, items index ≤ 1) {geometry : Geometry}
    {block out base lane : Nat} (hlast : base + geometry.threads ≤ task.input.length)
    {request : Request Nat α} (h : request ∈ moveStage task items geometry block out base lane) {value : α}
    (hvalue : request.cloned? = some value) :
    value ∈ selected items task.input.values base geometry.threads := by
  have hsize : task.input.length = task.input.values.size := rfl
  rcases List.mem_cons.mp h with rfl | h
  · cases hvalue
  · unfold moveRequests at h
    by_cases hfull : total (laneFlag items base geometry.threads) geometry.threads = geometry.threads
    · have hall : total (fun i => items (base + i)) geometry.threads = geometry.threads := by
        rwa [total_laneFlag, Nat.min_self] at hfull
      rw [if_pos hfull] at h
      rw [selected_of_full hflags (by omega) hall]
      split at h
      · exact BlockCopy.cloned_of_mem_copyRequests h hvalue
      · cases h
    · rw [if_neg hfull] at h
      exact cloned_of_mem_scatterRequests h hvalue

theorem apart_moveStage {geometry : Geometry} {block out base lanes : Nat} :
    (moveStage task items geometry block out base).Apart callbacks lanes :=
  Stage.apart_of_quiet fun _ _ _ hr => ⟨(mem_moveStage hr).1, (mem_moveStage hr).2.1⟩

section Full

variable {geometry : Geometry} {out base : Nat} (setting : Setting callbacks task items geometry.threads)

include setting

/-- A chunk that is moved as a whole. -/
theorem asks_moveSelected_full (block : Nat) {lane : Nat} (hlane : lane < geometry.threads)
    (hlast : base + geometry.threads ≤ task.input.length) (hout : out ≤ base) (flag : Nat)
    (sight : Sight Nat) :
    Lane.AsksUnless callbacks (task.output.length < out + geometry.threads)
      (moveSelected task (geometry.context block lane) out base flag geometry.threads) sight
      (if out + geometry.threads ≤ task.output.length then
        BlockCopy.copyRequests task.element (geometry.context block lane)
          (chunkSource task geometry.threads base) (task.output.dropped out)
      else []) (.barrier (.done (out + geometry.threads))) := by
  have hroom := setting.room
  have hsize : task.input.length = task.input.values.size := rfl
  have hadd : Word.add out geometry.threads = .ok (out + geometry.threads) := Word.add_eq_ok (by omega)
  have hend : ∀ sight, Lane.Asks callbacks (endChunk out geometry.threads) sight []
      (.barrier (.done (out + geometry.threads)) : Lane Nat α Nat) :=
    fun sight => (Lane.asks_ofExcept hadd sight).seq (.none ..)
  have hslice : task.input.slice task.element.size base (base + geometry.threads) =
      .ok (chunkSource task geometry.threads base) := by
    unfold Placed.slice
    rw [if_neg (by omega), if_neg (by omega)]
    rfl
  have hlength : (chunkSource task geometry.threads base).length = geometry.threads := by
    simp only [Placed.length, chunkSource, Array.size_extract]
    omega
  have hstart : ∀ {requests : List (Request Nat α)} {rest : Lane Nat α Nat},
      Lane.AsksUnless callbacks (task.output.length < out + geometry.threads) (do
        let _ ← BlockCopy.copy task.element (geometry.context block lane)
          (chunkSource task geometry.threads base) task.output out
        endChunk out geometry.threads) sight requests rest →
      Lane.AsksUnless callbacks (task.output.length < out + geometry.threads)
        (moveSelected task (geometry.context block lane) out base flag geometry.threads) sight requests
        rest := by
    intro requests rest h
    have hprogram := moveSelected_full task (geometry.context block lane) out base flag
    rw [show (geometry.context block lane).blockSize = geometry.threads from rfl] at hprogram
    rw [hprogram, hslice]
    exact h
  refine hstart ?_
  by_cases hfits : out + geometry.threads ≤ task.output.length
  · rw [if_pos hfits]
    have hcell : task.output.cell = task.element.size := by rw [setting.output]; rfl
    have hcopy : Lane.Asks callbacks (BlockCopy.copy task.element (geometry.context block lane)
        (chunkSource task geometry.threads base) task.output out) sight _ _ :=
      BlockCopy.asks_copy setting.element setting.clone hlane hcell
        (by rw [hcell]; exact setting.bytes) (by rw [hlength]; exact hfits) (by rw [hlength]; omega) sight
    exact (hcopy.unless (Nat.not_lt.mpr hfits)).seq (hend _)
  · rw [if_neg hfits]
    have hblocked := Nat.lt_of_not_le hfits
    obtain ⟨panic, hrelease, hfault⟩ := BlockCopy.copy_eq_fault (σ := Nat) task.element
      (geometry.context block lane) (chunkSource task geometry.threads base)
      (by rw [hlength]; exact hblocked)
    rw [hfault]
    exact Lane.Asks.unless_of_blocked (.none (.fault panic) sight) hrelease hblocked _

/-- A chunk whose selected lanes move their own elements. -/
theorem asks_moveSelected_part (block : Nat) {lane : Nat} (hlane : lane < geometry.threads)
    (hlast : base + geometry.threads ≤ task.input.length) (hout : out ≤ base) {sight : Sight Nat}
    (hranks : ∀ lane < geometry.threads, sight.slots[lane]? =
      some (total (laneFlag items base geometry.threads) (lane + 1)))
    (hpart : total (laneFlag items base geometry.threads) geometry.threads ≠ geometry.threads) :
    Lane.AsksUnless callbacks (PastEnd task items out base geometry.threads lane)
      (moveSelected task (geometry.context block lane) out base
        (laneFlag items base geometry.threads lane)
        (total (laneFlag items base geometry.threads) geometry.threads)) sight
      (scatterRequests task items out base geometry.threads lane)
      (.barrier (.done (out + total (laneFlag items base geometry.threads) geometry.threads))) := by
  have hroom := setting.room
  have hle := total_laneFlag_le setting.flags base geometry.threads geometry.threads
  have hadd : Word.add out (total (laneFlag items base geometry.threads) geometry.threads) =
      .ok (out + total (laneFlag items base geometry.threads) geometry.threads) :=
    Word.add_eq_ok (by omega)
  have hend : ∀ sight, Lane.Asks callbacks (endChunk out
      (total (laneFlag items base geometry.threads) geometry.threads)) sight [] (.barrier
        (.done (out + total (laneFlag items base geometry.threads) geometry.threads))) :=
    fun sight => (Lane.asks_ofExcept hadd sight).seq (.none ..)
  by_cases hflag : laneFlag items base geometry.threads lane = 0
  · have hnone : scatterRequests task items out base geometry.threads lane = [] := if_pos hflag
    rw [hflag, moveSelected_of_zero task _ out base hpart, hnone]
    exact (hend sight).unless fun hpast => hpast.1 hflag
  · rw [moveSelected_of_ne_zero task _ out base hpart hflag]
    exact (asks_scatter setting (geometry.context block lane) hlast hout hflag (hranks lane hlane)).seq
      (hend _)

/-- **A lane takes part in the move of a full chunk**, unless it is blocked. -/
theorem asks_move (block : Nat) {lane : Nat} (hlane : lane < geometry.threads)
    (hlast : base + geometry.threads ≤ task.input.length) (hout : out ≤ base) {sight : Sight Nat}
    (hranks : ∀ lane < geometry.threads, sight.slots[lane]? =
      some (total (laneFlag items base geometry.threads) (lane + 1))) :
    Lane.AsksUnless callbacks (Blocked task items geometry.threads out base lane)
      (move task (geometry.context block lane) out base (laneFlag items base geometry.threads lane)) sight
      (moveStage task items geometry block out base lane)
      (.barrier (.done (out + total (laneFlag items base geometry.threads) geometry.threads))) := by
  have hthreads : 0 < geometry.threads := Nat.zero_lt_of_lt hlane
  have hsub : Word.sub geometry.threads 1 = .ok (geometry.threads - 1) := Word.sub_eq_ok hthreads
  have hload : Request.answer callbacks (.load (geometry.threads - 1) : Request Nat α) sight =
      .ok (total (laneFlag items base geometry.threads) geometry.threads) := by
    have hrank := hranks (geometry.threads - 1) (Nat.sub_lt hthreads Nat.one_pos)
    rw [Nat.sub_add_cancel hthreads] at hrank
    simp only [Request.answer, hrank]
  have hstart : Lane.Asks callbacks (move task (geometry.context block lane) out base
      (laneFlag items base geometry.threads lane)) sight [.load (geometry.threads - 1)]
      (moveSelected task (geometry.context block lane) out base
        (laneFlag items base geometry.threads lane)
        (total (laneFlag items base geometry.threads) geometry.threads)) :=
    (Lane.asks_ofExcept hsub _).seq (.one hload (.none ..))
  have hmoves : Lane.AsksUnless callbacks (Blocked task items geometry.threads out base lane)
      (moveSelected task (geometry.context block lane) out base
        (laneFlag items base geometry.threads lane)
        (total (laneFlag items base geometry.threads) geometry.threads)) sight
      (moveRequests task items geometry block out base lane)
      (.barrier (.done (out + total (laneFlag items base geometry.threads) geometry.threads))) := by
    unfold moveRequests Blocked
    by_cases hfull : total (laneFlag items base geometry.threads) geometry.threads = geometry.threads
    · simp only [hfull, if_true]
      exact asks_moveSelected_full setting block hlane hlast hout _ sight
    · simp only [hfull, if_false]
      exact asks_moveSelected_part setting block hlane hlast hout hranks hfull
  exact hmoves.after hstart

end Full

end Compaction

end BlockMachine
