import BlockMachine.Proofs.Compaction.Arrivals
import BlockMachine.Proofs.Compaction.Deliveries
import BlockMachine.Proofs.Compaction.Returns
import BlockMachine.Proofs.Compaction.SecondAnswers

/-!
# The work of a compaction

Each launch asks once for each element, so that a compaction asks its predicate twice.  Elements that do not copy
through their bytes are cloned once for each that is selected when it is asked for the second time.

* `Compaction.Delivers.clones` — the clones of a chunk.
* `Compaction.Prepared.exists_plan_accounts` — the writing launch asks once for each element, and clones those that
  it finds selected.
* `Compaction.Accounted` — how often a compaction has asked and cloned, by what it answers.
* `Compaction.compactions_account` — so it is for all compactions by a predicate.
-/

set_option autoImplicit false

namespace BlockMachine

open Request BlockScan

namespace Compaction

variable {α S : Type} {config : LaunchConfig} {task : Task α} {counted items : Nat → Nat}

/-! ## The clones of a block -/

/-- A lane that delivers an element clones it once. -/
theorem clones_placeRequests (task : Task α) (place : Nat) {index : Nat}
    (h : index < task.input.length) : clones (placeRequests task place index) = 1 := by
  have hvalue : task.input.values[index]? = some task.input.values[index] := Array.getElem?_eq_getElem h
  rw [placeRequests, hvalue]
  simp only
  cases task.element.clone task.input.values[index] with
  | error _ => rfl
  | ok copy =>
    simp only
    split <;> rfl

/-- **The lanes that deliver a chunk** make one clone for each selected element. -/
theorem Delivers.clones {width : Nat} {chunk : Nat × Nat} {stage : Stage Nat α}
    (h : Delivers task items width chunk stage) (hitems : ∀ index, items index ≤ 1) (hchunk : chunk.2 ≤ width)
    (hinside : chunk.1 + chunk.2 ≤ task.input.length) :
    Request.clones (stage.all width) = countIn items chunk.1 (chunk.1 + chunk.2) := by
  have hlane : ∀ lane < width, Request.clones (stage lane) = laneFlag items chunk.1 chunk.2 lane := by
    intro lane hlane
    obtain ⟨early, place, hquiet, _, hstage⟩ := h lane hlane
    rw [hstage, clones_append, clones_of_none fun request hr => (hquiet request hr).2, Nat.zero_add, laneFlag]
    by_cases hchunk : lane < chunk.2
    · have hone := hitems (chunk.1 + lane)
      by_cases hitem : items (chunk.1 + lane) = 0
      · rw [if_neg fun h => h.2 hitem, if_pos hchunk, hitem]
        rfl
      · rw [if_pos ⟨hchunk, hitem⟩, clones_placeRequests task place (by omega), if_pos hchunk]
        omega
    · rw [if_neg fun h => hchunk h.1, if_neg hchunk]
      rfl
  rw [Stage.all, clones_flatMap, total_congr hlane, total_laneFlag, Nat.min_eq_right hchunk, countIn,
    Nat.add_sub_cancel_left]

/-- **The lanes that deliver the chunks of an interval** do so for the whole interval. -/
theorem clones_of_works {width start stop : Nat} {chunks : List (Nat × Nat)} {stages : List (Stage Nat α)}
    (h : Stage.Works (Idle width) (Delivers task items width) chunks stages)
    (hitems : ∀ index, items index ≤ 1) (hchunked : Reduction.Chunked width start stop chunks)
    (hstop : stop ≤ task.input.length) :
    Request.clones (stages.flatMap fun stage => stage.all width) = countIn items start stop := by
  induction h generalizing start with
  | nil =>
    cases hchunked
    rw [countIn, Nat.sub_self]
    rfl
  | pause hidle _ ih =>
    rw [List.flatMap_cons, clones_append, ih hchunked, clones_of_none fun request hr => ?_, Nat.zero_add]
    obtain ⟨lane, hlane, hr⟩ := Stage.mem_all.mp hr
    exact (hidle lane hlane request hr).2.1
  | work hdelivers _ ih =>
    cases hchunked with
    | cons hpos hn hlater =>
      have hle := hlater.le
      rw [List.flatMap_cons, clones_append, ih hlater, hdelivers.clones hitems hn (by simp only; omega)]
      exact countIn_add items (Nat.le_add_right ..) hle

/-! ## The writing launch -/

/-- Flags from an index on, led to by others that select as many elements as `out` tells. -/
def ledTo (items : Nat → Nat) (start out index : Nat) : Nat :=
  if index < start then if index < out then 1 else 0 else items index

theorem ledTo_le (hitems : ∀ index, items index ≤ 1) (start out index : Nat) :
    ledTo items start out index ≤ 1 := by
  have hitem := hitems index
  unfold ledTo
  split
  · split <;> omega
  · exact hitem

theorem total_ledTo {start out : Nat} (hout : out ≤ start) : total (ledTo items start out) start = out := by
  have hfront : ∀ n ≤ start, total (ledTo items start out) n = min n out := by
    intro n
    induction n with
    | zero => exact fun _ => (Nat.zero_min out).symm
    | succ n ih =>
      intro hn
      rw [total_succ, ih (by omega), ledTo, if_pos (by omega)]
      split <;> omega
  rw [hfront start (Nat.le_refl _), Nat.min_eq_right hout]

theorem countIn_ledTo (items : Nat → Nat) (start out stop : Nat) :
    countIn (ledTo items start out) start stop = countIn items start stop :=
  total_congr fun lane _ => if_neg (by omega)

/-- What is selected in all intervals. -/
theorem total_countIn (items : Nat → Nat) (cut : Decomposition) (blocks : Nat) :
    total (fun block => countIn items (cut.start block) (cut.start (block + 1))) blocks =
      total items (cut.start blocks) := by
  induction blocks with
  | zero => rw [cut.start_zero, total_zero, total_zero]
  | succ blocks ih => rw [total_succ, ih, total_start_add]

/-- **The writing launch asks once for each element, and clones those that it finds selected**, if they do not copy
through their bytes. -/
theorem Prepared.exists_plan_accounts (prepared : Prepared config task counted) (flags : View Nat)
    (hitems : ∀ index, items index ≤ 1) {calls : Array Nat}
    (hgives : ∀ index < task.cut.total, flags.item index (calls[index]?.getD 0) = .ok (items index))
    (hfits : Fits task counted items) :
    ∃ (plan : Plan (kernel flags task) (config.geometry task.cut.count) calls) (made : Nat → Nat),
      plan.Accounts task.cut made ∧
        (task.element.isTrivial = false → total made task.cut.count = total items task.cut.total) := by
  obtain ⟨hwidth, _⟩ := LaunchConfig.width_of_validate prepared.valid
  have hslots : (⟨Slots.blank config.width 0, calls⟩ : Sight Nat).slots.size =
      (config.geometry task.cut.count).threads := Array.size_replicate ..
  obtain ⟨plan, hplan⟩ := Plan.exists_of_intervals (kernel flags task) (config.geometry task.cut.count)
    calls rfl task.cut (fun block stages stops => Block.EndWell config.width stops ∧
      AsksEach (task.cut.start block) (task.cut.start (block + 1))
        (stages.flatMap fun stage => stage.all config.width) ∧
      (task.element.isTrivial = false → Request.clones (stages.flatMap fun stage => stage.all config.width) =
        countIn items (task.cut.start block) (task.cut.start (block + 1)))) fun block hblock => by
    -- the block does the same if the flags in front of it select as many elements as were counted there
    have hout := prepared.total_start_le block
    have hled := ledTo_le hitems (task.cut.start block) (total counted (task.cut.start block))
    have hsetting : Setting (kernel flags task).callbacks task
        (ledTo items (task.cut.start block) (total counted (task.cut.start block)))
        (config.geometry task.cut.count).threads := prepared.setting flags hled
    have hfirst : firstPlace task.offsets block = .ok (total counted (task.cut.start block)) :=
      prepared.firstPlace_eq hblock
    have hstop : task.cut.start (block + 1) ≤ task.cut.total := Decomposition.start_le_total hblock
    obtain ⟨stages, stops, hruns, houtcome⟩ := runs_program hsetting block hwidth prepared.covers hblock
      hfirst hout (prepared.total_start_le_length (Nat.le_of_lt hblock)) hslots fun index hle hlt => by
        rw [ledTo, if_neg (Nat.not_lt.mpr hle)]
        exact hgives index (Nat.lt_of_lt_of_le hlt hstop)
    have hroom := hfits block hblock
    rw [← countIn_ledTo items (task.cut.start block) (total counted (task.cut.start block))] at hroom ⊢
    refine ⟨stages, stops, hruns, houtcome.within, houtcome.ends hroom, houtcome.asks hroom,
      fun htrivial => ?_⟩
    have hturns := houtcome.turns (total_ledTo hout).symm hroom
    exact clones_of_works (hturns.imp (fun _ _ hidle => hidle) fun _ _ _ hmoves =>
      hmoves.delivers hled prepared.output (.inl htrivial)) hled
      (Reduction.chunked_chunks hwidth ⟨_, _⟩ (task.cut.start_mono (Nat.le_succ block)))
      (hstop.trans prepared.covers.le)
  refine ⟨plan, fun block => Request.clones (plan.requests block), ⟨fun block hblock => (hplan block hblock).1,
    fun block hblock => (hplan block hblock).2.1, fun _ _ => rfl⟩, fun htrivial => ?_⟩
  have hmade : total (fun block => Request.clones (plan.requests block)) task.cut.count =
      total (fun block => countIn items (task.cut.start block) (task.cut.start (block + 1))) task.cut.count :=
    total_congr fun block hblock => (hplan block hblock).2.2 htrivial
  rw [hmade, total_countIn, Decomposition.start_count prepared.count]

/-! ## Both launches -/

section Both

variable {orders : Orders} {element : Element α} {input : Placed α} {flags : View Nat} {address : Nat}
  {before store : Store α} (hlength : input.length < Word.allocationLimit)
  (hbytes : before.output.size * element.size < Word.limit)
  (hclone : ∀ value, ∃ copy, element.clone value = .ok copy)
  (hcounting : ∀ blocks, (orders.counting blocks).Perm (List.range blocks))
  (hwriting : ∀ blocks, (orders.writing blocks).Perm (List.range blocks))
  (hcounted : ∀ index, counted index ≤ 1) (hitems : ∀ index, items index ≤ 1)
  (hfresh : ∀ index < input.length, before.journal.calls[index]? = some 0)
  (hfirst : ∀ index < input.length, flags.item index 0 = .ok (counted index))
  (hsecond : ∀ index < input.length, flags.item index 1 = .ok (items index))

include hlength hcounting hcounted hfresh hfirst

/-- **Once there are offsets**, each element has been asked for once. -/
theorem asked_once {cut : Decomposition} {found : Array Nat} {journal : Journal}
    (hvalid : config.validate = .ok ()) (hempty : input.length ≠ 0)
    (hcut : Decomposition.forLaunch config input.length = .ok cut) (hflags : flags.length = input.length)
    (hoffsets : offsets orders.counting config flags cut before.journal = (.ok found, journal)) :
    found.back?.getD 0 = total counted input.length ∧
      Journal.Worked input.length 1 0 before.journal journal := by
  have hlimits : Word.allocationLimit < Word.limit := by decide
  obtain ⟨hcovers, hcount⟩ := Decomposition.of_forLaunch hvalid (Nat.pos_of_ne_zero hempty) hcut
  obtain ⟨hends, hworked⟩ := ends_of_offsets hvalid hempty hcut (by omega) hflags hcounting hcounted
    (fun index hindex => by
      rw [hfresh index hindex]
      exact hfirst index hindex) hoffsets
  exact ⟨by rw [hends, back?_ends hcount, hcovers], hworked⟩

/-- **A compaction that finds its output too small** has asked once for each element, and has cloned nothing. -/
theorem asked_once_of_outputTooSmall (hempty : input.length ≠ 0) {required available : Nat}
    (h : (compactFlags orders config element input flags address before).1 =
      .error (.error (.outputTooSmall required available))) :
    required = total counted input.length ∧ Journal.Worked input.length 1 0 before.journal
      (compactFlags orders config element input flags address before).2.journal := by
  rcases arrives_or_fails orders config element flags address before hempty with
    ⟨task, store, harrives⟩ | ⟨failure, journal, hfails, hearly⟩
  · -- nobody looks at the size of the output any more
    have hroomy := launchInOrder_roomy orders.writing config (kernel flags task) task.cut.count config.width
      store
    rw [harrives.compactFlags_eq] at h
    split at h
    · next failure after hlaunch =>
      rw [hlaunch] at hroomy
      cases h
      exact hroomy.elim
    · cases h
  · rw [hfails] at h
    obtain ⟨hflags, hvalid, cut, found, hcut, hoffsets, hrequired⟩ :=
      hearly required available (Except.error.inj h)
    obtain ⟨hselected, honce⟩ :=
      asked_once hlength hcounting hcounted hfresh hfirst hvalid hempty hcut hflags hoffsets
    rw [hfails]
    exact ⟨hrequired.trans hselected, honce⟩

include hbytes hclone hwriting hitems hsecond

/-- **A compaction that succeeds** has asked twice for each element, whatever turns the lanes of its writing launch
take. -/
theorem Arrives.asked_twice (h : Arrives orders config element input flags address before task store)
    (hok : ∃ count, (compactFlags orders config element input flags address before).1 = .ok count) :
    ∃ made, (element.isTrivial = false → made = total items input.length) ∧
      (compactFlags orders config element input flags address before).1 = .ok (total counted input.length) ∧
      Journal.Worked input.length 2 made before.journal
        (compactFlags orders config element input flags address before).2.journal ∧
      ∀ scheduling places,
        (Grid.run scheduling (kernel flags task) (config.geometry task.cut.count) store places).isOver = true →
          Journal.Worked input.length 2 made before.journal (Grid.run scheduling (kernel flags task)
            (config.geometry task.cut.count) store places).store.journal := by
  obtain ⟨hselected, honce⟩ :=
    asked_once hlength hcounting hcounted hfresh hfirst h.valid h.nonempty h.cut h.length h.offsets
  obtain rfl : task.element = element := by rw [h.same]
  obtain rfl : task.input = input := by rw [h.same]
  obtain ⟨prepared, _⟩ := h.prepared hlength hbytes hclone hcounting hcounted fun index hindex => by
    rw [hfresh index hindex]
    exact hfirst index hindex
  have hcovers := prepared.covers
  have hgives : ∀ index < task.cut.total,
      flags.item index (store.journal.calls[index]?.getD 0) = .ok (items index) := by
    intro index hindex
    rw [hcovers] at hindex
    rw [honce.calls index, hfresh index hindex, if_pos hindex]
    exact hsecond index hindex
  have hfits := (h.exists_ok_iff prepared hitems hgives hwriting).mp hok
  obtain ⟨plan, made, haccounts, hmade⟩ := prepared.exists_plan_accounts flags hitems hgives hfits
  obtain ⟨after, hlaunch, hworked⟩ :=
    haccounts.worked_launchInOrder prepared.valid prepared.count (hwriting _) rfl
  rw [hcovers] at hworked
  have htwice := honce.trans hworked
  refine ⟨0 + total made task.cut.count, fun htrivial => ?_, ?_, ?_, fun scheduling places hover => ?_⟩
  · rw [Nat.zero_add, hmade htrivial, hcovers]
  · rw [h.compactFlags_eq, hlaunch]
    exact congrArg Except.ok hselected
  · rw [h.compactFlags_eq, hlaunch]
    exact ⟨htwice.calls, htwice.clones⟩
  · have hrun := haccounts.worked_run prepared.count rfl hover
    rw [hcovers] at hrun
    exact honce.trans hrun

end Both

/-- **The counting launch** asks once for each element and clones nothing, whatever turns its lanes take. -/
theorem counting_worked {cut : Decomposition} {flags : View Nat} (hvalid : config.validate = .ok ())
    (hcut : cut.WithinWord) (hcount : 0 < cut.count) {counts : Store Nat} (hsize : cut.count ≤ counts.output.size)
    (hgives : ∀ index < cut.total, flags.item index (counts.journal.calls[index]?.getD 0) = .ok (items index))
    (hsum : total items cut.total < Word.limit) {scheduling : Scheduling} {places : List (Nat × Nat)}
    {run : Grid Nat Nat} (hrun : run = Grid.run scheduling
      (Reduction.kernel 0 Word.add flags cut counts.output.size) (config.geometry cut.count)
      ((Reduction.logged cut counts).launched config cut.count) places) (hover : run.isOver = true) :
    Journal.Worked cut.total 1 0 counts.journal run.store.journal := by
  obtain ⟨hwidth, _⟩ := LaunchConfig.width_of_validate hvalid
  obtain ⟨plan, hdoes⟩ := Reduction.exists_plan_of_withinWord 0 hvalid hcut hsize hgives
    fun block hblock => Reduction.folds_intervals _ rfl hwidth hsum hblock
  subst hrun
  have hworked := (Reduction.accounts_of_does hdoes).worked_run hcount rfl hover
  rw [total_of_zero fun _ => rfl] at hworked
  exact ⟨hworked.calls, hworked.clones⟩

/-! ## All compactions by a predicate -/

/-- How many of the first elements a predicate selects when it is asked after `earlier` times. -/
def chosen (keeps : Nat → Nat → S → Bool) (stencil : Array S) (length earlier : Nat) : Nat :=
  (List.range length).countP fun index => stencil[index]?.any (keeps index earlier)

theorem total_flagsAt (keeps : Nat → Nat → S → Bool) (stencil : Array S) (length earlier : Nat) :
    total (flagsAt keeps stencil earlier) length = chosen keeps stencil length earlier := by
  induction length with
  | zero => rfl
  | succ length ih =>
    rw [total_succ, ih, chosen, chosen, List.range_succ, List.countP_append, List.countP_singleton, flagsAt, flagOf]
    cases stencil[length]? <;> rfl

/-- How often a compaction has asked for each element and how often it has cloned, by what it answers.  Elements that
copy through their bytes may be cloned or not. -/
structure Accounted (orders : Orders) (config : LaunchConfig) (element : Element α) (input : Placed α)
    (stencil : Array S) (keeps : Nat → Nat → S → Bool) (address : Nat) (before : Store α)
    (result : Except Failure Nat × Store α) : Prop where
  /-- A success has asked twice for each element, and has cloned those that were selected the second time. -/
  succeeds : ∀ count, result.1 = .ok count → count = chosen keeps stencil input.length 0 ∧
    ∃ made, (element.isTrivial = false → made = chosen keeps stencil input.length 1) ∧
      Journal.Worked input.length 2 made before.journal result.2.journal
  /-- Without room for what is selected the first time, each element has been asked for once. -/
  exceeds : ∀ required available, result.1 = .error (.error (.outputTooSmall required available)) →
    required = chosen keeps stencil input.length 0 ∧
      Journal.Worked input.length 1 0 before.journal result.2.journal
  /-- Any finished run of the counting launch has asked once for each element. -/
  counting : input.length ≤ stencil.size → config.validate = .ok () →
    ∀ cut, Decomposition.forLaunch config input.length = .ok cut →
    ∀ counts : Store Nat, cut.count ≤ counts.output.size → counts.journal.calls = before.journal.calls →
    ∀ scheduling places run, run = Grid.run scheduling (Reduction.kernel 0 Word.add (stencilFlags stencil
        (fun index earlier value => .ok (keeps index earlier value)) input.length) cut counts.output.size)
      (config.geometry cut.count) ((Reduction.logged cut counts).launched config cut.count) places →
    run.isOver = true → Journal.Worked input.length 1 0 counts.journal run.store.journal
  /-- If the compaction succeeds, any finished run of its writing launch has done the same work. -/
  writing : (∃ count, result.1 = .ok count) →
    ∀ task store, Arrives orders config element input (stencilFlags stencil
        (fun index earlier value => .ok (keeps index earlier value)) input.length) address before task store →
    ∃ made, (element.isTrivial = false → made = chosen keeps stencil input.length 1) ∧
      ∀ scheduling places run, run = Grid.run scheduling (kernel (stencilFlags stencil
          (fun index earlier value => .ok (keeps index earlier value)) input.length) task)
        (config.geometry task.cut.count) store places →
      run.isOver = true → Journal.Worked input.length 2 made before.journal run.store.journal

section Account

variable {orders : Orders} {element : Element α} {input : Placed α} {before : Store α}
  (hempty : input.length ≠ 0) (hlength : input.length < Word.allocationLimit)
  (hbytes : before.output.size * element.size < Word.limit)
  (hclone : ∀ value, ∃ copy, element.clone value = .ok copy)
  (hcounting : ∀ blocks, (orders.counting blocks).Perm (List.range blocks))
  (hwriting : ∀ blocks, (orders.writing blocks).Perm (List.range blocks))
  (hfresh : ∀ index < input.length, before.journal.calls[index]? = some 0)

include hempty hlength hbytes hclone hcounting hwriting hfresh

/-- A compaction by a stencil of the right length. -/
theorem account_of_stencil {stencil : Array S} (hstencil : input.length ≤ stencil.size)
    (keeps : Nat → Nat → S → Bool) (address : Nat) :
    Accounted orders config element input stencil keeps address before
      (copyIfInOrder orders config element input stencil
        (fun index earlier value => .ok (keeps index earlier value)) address before) := by
  have hlimits : Word.allocationLimit < Word.limit := by decide
  have hflags : ∀ earlier index, flagsAt keeps stencil earlier index ≤ 1 :=
    fun earlier => flagOf_le _ stencil
  have hitem : ∀ earlier, ∀ index < input.length,
      (stencilFlags stencil (fun index earlier value => .ok (keeps index earlier value))
        input.length).item index earlier = .ok (flagsAt keeps stencil earlier index) :=
    fun earlier index hindex => item_stencilFlags hstencil hindex fun _ => rfl
  have hasked {task : Task α} {store : Store α} (harrives : Arrives orders config element input
      (stencilFlags stencil (fun index earlier value => .ok (keeps index earlier value)) input.length)
      address before task store) :=
    harrives.asked_twice hlength hbytes hclone hcounting hwriting (hflags 0) (hflags 1) hfresh (hitem 0)
      (hitem 1)
  simp only [total_flagsAt] at hasked
  rw [copyIfInOrder_eq orders config element hstencil]
  refine ⟨fun count hcount => ?_, fun required available hexceeds => ?_, ?_, ?_⟩
  · rcases arrives_or_fails orders config element _ address before hempty with
      ⟨task, store, harrives⟩ | ⟨failure, journal, hfails, _⟩
    · obtain ⟨made, hmade, hanswer, hworked, _⟩ := hasked harrives ⟨count, hcount⟩
      exact ⟨Except.ok.inj (hcount.symm.trans hanswer), made, hmade, hworked⟩
    · rw [hfails] at hcount
      cases hcount
  · rw [← total_flagsAt]
    exact asked_once_of_outputTooSmall hlength hcounting (hflags 0) hfresh (hitem 0) hempty hexceeds
  · intro _ hvalid cut hcut counts hsize hcalls scheduling places run hrun hover
    obtain ⟨hcovers, hcount⟩ := Decomposition.of_forLaunch hvalid (Nat.pos_of_ne_zero hempty) hcut
    have hsum := total_le_self (hflags 0) cut.total
    have hworked := counting_worked hvalid (.of_total (by omega)) hcount hsize (fun index hindex => by
      rw [hcovers] at hindex
      rw [hcalls, hfresh index hindex]
      exact hitem 0 index hindex) (by omega) hrun hover
    rwa [hcovers] at hworked
  · intro hok task store harrives
    obtain ⟨made, hmade, _, _, hruns⟩ := hasked harrives hok
    exact ⟨made, hmade, fun scheduling places run hrun hover => hrun ▸ hruns scheduling places (hrun ▸ hover)⟩

theorem copyIfInOrder_account (stencil : Array S) (keeps : Nat → Nat → S → Bool) (address : Nat) :
    Accounted orders config element input stencil keeps address before
      (copyIfInOrder orders config element input stencil
        (fun index earlier value => .ok (keeps index earlier value)) address before) := by
  by_cases hstencil : input.length ≤ stencil.size
  · exact account_of_stencil hempty hlength hbytes hclone hcounting hwriting hfresh hstencil keeps address
  · -- the lengths are compared before anything is asked for
    rw [copyIfInOrder_def, if_pos (Nat.lt_of_not_le hstencil)]
    constructor
    · rintro _ ⟨⟩
    · rintro _ _ ⟨⟩
    · exact fun h => absurd h hstencil
    · rintro ⟨_, ⟨⟩⟩

/-- **A compaction asks twice for each element and for no other**, and clones what it finds selected the second time,
unless elements copy through their bytes.  Where it finds that there is no room, it has asked once and cloned
nothing.  What is selected the first time is the number that it tells. -/
theorem compactions_account (stencil : Array S) (keeps : Nat → Nat → S → Bool) (holds : Nat → Nat → α → Bool)
    (address : Nat) :
    Accounted orders config element input stencil keeps address before
      (copyIfInOrder orders config element input stencil
        (fun index earlier value => .ok (keeps index earlier value)) address before) ∧
    Accounted orders config element input stencil (fun index earlier value => !keeps index earlier value) address
      before (removeCopyIfInOrder orders config element input stencil
        (fun index earlier value => .ok (keeps index earlier value)) address before) ∧
    Accounted orders config element input input.values holds address before
      (copyIfUnstenciledInOrder orders config element input
        (fun index earlier value => .ok (holds index earlier value)) address before) :=
  ⟨copyIfInOrder_account hempty hlength hbytes hclone hcounting hwriting hfresh stencil keeps address,
    copyIfInOrder_account hempty hlength hbytes hclone hcounting hwriting hfresh stencil
      (fun index earlier value => !keeps index earlier value) address,
    copyIfInOrder_account hempty hlength hbytes hclone hcounting hwriting hfresh input.values holds address⟩

end Account

/-- A predicate that is asked for the second time about three elements selects two of the three that it selected
before, and only these are cloned.  Where there is no room for three, it is not asked again. -/
theorem compactions_account_fading :
    let fading : Nat → Nat → Unit → Bool := fun index earlier _ => index + earlier < 3
    let call := fun room => copyIf pairConfig (Element.cloned 1) ⟨#[5, 8, 2], 0⟩ #[(), (), ()]
      (fun index earlier value => .ok (fading index earlier value)) 0 ⟨Array.replicate room 7, .start 3⟩
    Journal.Worked 3 2 2 (.start 3) (call 3).2.journal ∧ Journal.Worked 3 1 0 (.start 3) (call 2).2.journal := by
  intro fading call
  have hfresh : ∀ index < 3, (Journal.start 3).calls[index]? = some 0 := by decide
  have haccount : ∀ room, room * 1 < Word.limit → Accounted (.ofConfig pairConfig) pairConfig (Element.cloned 1)
      ⟨#[5, 8, 2], 0⟩ #[(), (), ()] fading 0 ⟨Array.replicate room 7, .start 3⟩ (call room) :=
    fun room hroom => (@compactions_account Nat Unit pairConfig (.ofConfig pairConfig) (Element.cloned 1)
      ⟨#[5, 8, 2], 0⟩ ⟨Array.replicate room 7, .start 3⟩ (by decide) (by decide)
      (by rw [Array.size_replicate]; exact hroom) (fun value => ⟨value, rfl⟩) pairConfig.scheduling.perm_order
      pairConfig.scheduling.perm_order hfresh #[(), (), ()] fading (fun _ _ _ => true) 0).1
  have hthree : (call 3).1 = .ok 3 := by decide +kernel
  have htwo : (call 2).1 = .error (.error (.outputTooSmall 3 2)) := by decide +kernel
  obtain ⟨_, made, hmade, htwice⟩ := (haccount 3 (by decide)).succeeds 3 hthree
  obtain rfl : made = 2 := (hmade rfl).trans (by decide)
  exact ⟨htwice, ((haccount 2 (by decide)).exceeds 3 2 htwo).2⟩

end Compaction

end BlockMachine
