import BlockMachine.Proofs.Compaction.Returns
import BlockMachine.Proofs.Reduction.Alarms

/-!
# Predicates that panic

The launch that counts asks the predicate for every element before anything is written.  If the predicate
panics then this launch fails, with the panic of an element in the first chunk of its block that has one, and
the output is not even looked at.

* `Scheduling.Admits`, `Compaction.Equipped` — what a compaction needs to come to its counting launch.
* `Compaction.CountFault` — what it answers if the predicate panics.
* `Compaction.predicate_faults_reported` — it answers so whatever the output, as long as the default of the
  block limit is a word; and stencil values that belong to no element have no influence.
-/

set_option autoImplicit false

namespace BlockMachine

open BlockScan

variable {α S : Type}

/-- An order of the blocks that a scheduling admits: in parallel any order, and otherwise its own. -/
structure Scheduling.Admits (scheduling : Scheduling) (order : Nat → List Nat) : Prop where
  perm : ∀ blocks, (order blocks).Perm (List.range blocks)
  kept : scheduling = .parallel ∨ ∀ blocks, scheduling.order blocks = order blocks

theorem Scheduling.admits_order (scheduling : Scheduling) : scheduling.Admits scheduling.order :=
  ⟨scheduling.perm_order, .inr fun _ => rfl⟩

/-- What is told of a panic hangs on the elements only. -/
theorem Decomposition.Blames.congr {cut : Decomposition} {width block : Nat} {scheduling : Scheduling}
    {alarm alarm' : Nat → Option Panic} {panic : Panic} (h : cut.Blames width scheduling alarm block panic)
    (hsame : ∀ index < cut.total, alarm index = alarm' index) :
    cut.Blames width scheduling alarm' block panic := by
  have hstop : ∀ other < cut.count, cut.start (other + 1) ≤ cut.total := fun _ => cut.start_le_total
  obtain ⟨index, hcomes, hpanic⟩ := h.element
  have hin : ∀ other < cut.start (block + 1), alarm other = alarm' other :=
    fun other hother => hsame other (Nat.lt_of_lt_of_le hother (hstop block h.lt))
  refine ⟨h.lt, ⟨index, ⟨hcomes.start_le, hcomes.lt_stop, fun other hle hlt hne => ?_⟩, ?_⟩,
    fun other hother hbefore index hle hlt => ?_⟩
  · exact hcomes.first other hle hlt (hin other hlt ▸ hne)
  · exact hin index hcomes.lt_stop ▸ hpanic
  · exact hsame index (Nat.lt_of_lt_of_le hlt (hstop other hother)) ▸ h.before other hother hbefore index hle hlt

namespace Compaction

/-- What a compaction of some elements relies on to come to its counting launch: there is temporary storage for
a number of eight bytes for each interval, and its blocks run in an order that its scheduling admits. -/
structure Equipped (orders : Orders) (config : LaunchConfig) (length : Nat) : Prop where
  valid : config.validate = .ok ()
  storage : ∀ cut, Decomposition.forLaunch config length = .ok cut →
    8 * cut.count < Word.allocationLimit ∧
      ∀ limit, config.tempLimit = some limit → 8 * cut.count ≤ limit.toNat
  counting : config.scheduling.Admits orders.counting
  writing : config.scheduling.Admits orders.writing

/-- What a compaction answers some of whose flags panic. -/
structure CountFault (orders : Orders) (config : LaunchConfig) (element : Element α) (input : Placed α)
    (flags : View Nat) (alarm : Nat → Option Panic) (address : Nat) (before : Store α) (cut : Decomposition)
    (result : Except Failure Nat × Store α) : Prop where
  /-- The counting launch reports the panic of one of the first of these, and so does the compaction, which
  leaves the output as it was. -/
  reports : ∃ block panic journal, cut.Blames config.width config.scheduling alarm block panic ∧
    offsets orders.counting config flags cut before.journal =
      (.error (.error (.kernelFault block panic.report)), journal) ∧
    result = (.error (.error (.kernelFault block panic.report)), { before with journal := journal })
  /-- It does not come to its writing launch. -/
  unwritten : ∀ task store, ¬ Arrives orders config element input flags address before task store
  /-- The counting launch reports one of them whatever turns its lanes take. -/
  runs : ∀ (store : Store Nat), cut.count ≤ store.output.size → ∀ places,
    Reduction.CountRuns config flags cut alarm store places

variable {orders : Orders} {config : LaunchConfig} {element : Element α} {input : Placed α}

variable (element) in
/-- **A compaction some of whose flags panic fails in its counting launch.** -/
theorem compactFlags_countFault {flags : View Nat} (equipped : Equipped orders config input.length)
    (hproduct : config.DerivesLimit) (hlength : input.length + 1 < Word.limit)
    (hflags : flags.length = input.length)
    (hpure : ∀ index earlier later, flags.item index earlier = flags.item index later)
    (hsmall : ∀ index, flags.itemOr 0 index 0 ≤ 1)
    (hspeaks : ∀ index < input.length, ∀ panic, flags.alarm index = some panic → panic.isRelease = false)
    (hpanics : ∃ index < input.length, flags.alarm index ≠ none) (address : Nat) (before : Store α) :
    ∃ cut, Decomposition.forLaunch config input.length = .ok cut ∧ cut.total = input.length ∧
      CountFault orders config element input flags flags.alarm address before cut
        (compactFlags orders config element input flags address before) := by
  have hpos : 0 < input.length := Nat.zero_lt_of_lt hpanics.choose_spec.1
  obtain ⟨cut, hcut, hcovers, hcount⟩ :=
    Decomposition.exists_forLaunch equipped.valid hproduct hpos
  obtain ⟨hallocation, hlimit⟩ := equipped.storage cut hcut
  simp only [Nat.mul_comm 8] at hallocation hlimit
  have hword : cut.WithinWord := .of_total (by omega)
  have hsum : total (flags.itemOr 0 · 0) cut.total < Word.limit :=
    Nat.lt_of_le_of_lt (total_le_self hsmall cut.total) (by omega)
  rw [← hcovers] at hspeaks hpanics
  -- the counting launch fails
  have hsize : cut.count ≤ (⟨Array.replicate cut.count 0, before.journal⟩ : Store Nat).output.size :=
    Nat.le_of_eq Array.size_replicate.symm
  obtain ⟨block, panic, after, hblames, hreduced⟩ := Reduction.reduceInOrder_reports equipped.valid hword
    hcount hsize hpure hsum hspeaks hpanics (hflags.trans hcovers.symm) (equipped.counting.perm _)
    (equipped.counting.kept.imp_right fun hkept => hkept cut.count)
  have hoffsets : offsets orders.counting config flags cut before.journal =
      (.error (.error (.kernelFault block panic.report)), after.journal) := by
    rw [offsets_def]
    rw [Temporary.allocate_eq hallocation hlimit]
    simp only [hreduced]
  refine ⟨cut, hcut, hcovers, ⟨block, panic, _, hblames, hoffsets, ?_⟩, fun task store harrives => ?_,
    fun store hroom places => Reduction.count_runs equipped.valid hword hcount hroom hpure hsum hspeaks
      hpanics places⟩
  · rw [compactFlags_of_cut equipped.valid (Nat.ne_of_gt hpos) hflags hcut, hoffsets]
  · obtain rfl : task.cut = cut := Except.ok.inj (harrives.cut.symm.trans hcut)
    have hfound := harrives.offsets
    rw [hoffsets] at hfound
    cases hfound

/-- The panic of a predicate on the stencil value of an element, if there is one. -/
def stencilAlarm (keeps : S → Except Panic Bool) (stencil : Array S) (index : Nat) : Option Panic :=
  stencil[index]?.bind fun value => Panic.of? (keeps value)

theorem alarm_stencilFlags (keeps : S → Except Panic Bool) {stencil : Array S} {length : Nat}
    (hstencil : length ≤ stencil.size) {index : Nat} (hindex : index < length) :
    (stencilFlags stencil (.ofPartial keeps) length).alarm index = stencilAlarm keeps stencil index := by
  have hvalue : stencil[index]? = some stencil[index] := Array.getElem?_eq_getElem (by omega)
  rw [View.alarm, item_stencilFlags_eq (.ofPartial keeps) hstencil hindex hvalue 0, stencilAlarm, hvalue,
    Option.bind_some, Selector.ofPartial]
  cases keeps stencil[index] <;> rfl

/-- What is told of the panics of some flags can be told of other ones with the same panics. -/
theorem CountFault.congr {flags : View Nat} {alarm alarm' : Nat → Option Panic} {address : Nat}
    {before : Store α} {cut : Decomposition} {result : Except Failure Nat × Store α}
    (h : CountFault orders config element input flags alarm address before cut result)
    (hsame : ∀ index < cut.total, alarm index = alarm' index) :
    CountFault orders config element input flags alarm' address before cut result := by
  obtain ⟨block, panic, journal, hblames, hreports⟩ := h.reports
  refine ⟨⟨block, panic, journal, hblames.congr hsame, hreports⟩, h.unwritten,
    fun store hroom places => ⟨(h.runs store hroom places).ends, fun hover answer hanswer => ?_⟩⟩
  obtain ⟨block, panic, hblames, hreport⟩ := (h.runs store hroom places).reports hover answer hanswer
  exact ⟨block, panic, hblames.congr hsame, hreport⟩

/-- **A predicate that panics is reported by the counting launch**, if the default of the block limit is a word,
and nothing is written, whatever the output; without such a default the call panics.  Stencil values that
belong to no element have no influence. -/
theorem predicate_faults_reported (equipped : Equipped orders config input.length)
    (hlength : input.length + 1 < Word.limit) {stencil : Array S} (hstencil : input.length ≤ stencil.size)
    {keeps : S → Except Panic Bool}
    (hspeaks : ∀ index < input.length, ∀ panic, stencilAlarm keeps stencil index = some panic →
      panic.isRelease = false)
    (hpanics : ∃ index < input.length, stencilAlarm keeps stencil index ≠ none) (address : Nat)
    (before : Store α) :
    let flags := stencilFlags stencil (.ofPartial keeps) input.length
    let result := copyIfInOrder orders config element input stencil (.ofPartial keeps) address before
    (config.DerivesLimit → ∃ cut, Decomposition.forLaunch config input.length = .ok cut ∧
      CountFault orders config element input flags (stencilAlarm keeps stencil) address before cut result) ∧
    (¬ config.DerivesLimit → result = (.error (.panic (.overflow .multiply)), before)) ∧
    ∀ other : Array S, input.length ≤ other.size → (∀ index < input.length, other[index]? = stencil[index]?) →
      copyIfInOrder orders config element input other (.ofPartial keeps) address before = result := by
  intro flags result
  have hflags : flags.length = input.length := length_stencilFlags hstencil _
  have hresult : result = compactFlags orders config element input flags address before :=
    copyIfInOrder_eq orders config element hstencil _ address before
  have halarm : ∀ index < input.length, flags.alarm index = stencilAlarm keeps stencil index :=
    fun index => alarm_stencilFlags keeps hstencil
  refine ⟨fun hproduct => ?_, fun hproduct => ?_, fun other hother hsame => ?_⟩
  · obtain ⟨cut, hcut, hcovers, hfault⟩ := compactFlags_countFault element equipped hproduct hlength hflags
      (fun _ _ _ => rfl) (fun index => View.itemOr_flags_le _ _ index 0)
      (fun index hindex panic hpanic => hspeaks index hindex panic (halarm index hindex ▸ hpanic))
      (hpanics.imp fun index ⟨hindex, hne⟩ => ⟨hindex, (halarm index hindex).symm ▸ hne⟩) address before
    rw [hresult]
    exact ⟨cut, hcut, hfault.congr fun index hindex => halarm index (hcovers ▸ hindex)⟩
  · obtain ⟨index, hindex, _⟩ := hpanics
    rw [hresult]
    exact compactFlags_overflows equipped.valid hproduct (by omega) hflags address before
  · have hfront : other.extract 0 input.length = stencil.extract 0 input.length := by
      apply Array.ext_getElem?
      intro index
      rw [Array.getElem?_extract, Array.getElem?_extract]
      simp only [Nat.zero_add]
      by_cases hindex : index < input.length
      · rw [if_pos (by omega), if_pos (by omega)]
        exact hsame index hindex
      · rw [if_neg (by omega), if_neg (by omega)]
    rw [hresult, copyIfInOrder_eq orders config element hother, stencilFlags, hfront]
    rfl

/-! ## A predicate that panics on two values -/

/-- A predicate that panics on 7 and on 9. -/
def choosy (value : Nat) : Except Panic Bool :=
  if value = 7 then .error (.raised (.composed "seven"))
  else if value = 9 then .error (.raised (.composed "nine"))
  else .ok true

/-- Two blocks of two lanes, the later one first. -/
def reversedPair : LaunchConfig := {
  threadsPerBlock := 2, multiprocessors := 1, maxBlocks := some 2, scheduling := .reversed, tempLimit := some 16 }

theorem forLaunch_reversedPair : Decomposition.forLaunch reversedPair 8 = .ok (.even 8 2) := by
  unfold Decomposition.forLaunch LaunchConfig.blockLimit
  rw [Word.mul_eq_ok (by decide)]
  have hcount : min (Decomposition.blocksFor 8 reversedPair.width)
    ((reversedPair.maxBlocks.map UInt64.toNat).getD 10) = 2 := by decide
  exact congrArg (fun count => Except.ok (Decomposition.even 8 count)) hcount

theorem equipped_reversedPair : Equipped (.ofConfig reversedPair) reversedPair 8 := by
  refine ⟨rfl, fun cut hcut => ?_, Scheduling.admits_order _, Scheduling.admits_order _⟩
  obtain rfl := Except.ok.inj (forLaunch_reversedPair.symm.trans hcut)
  refine ⟨by decide, fun limit hlimit => ?_⟩
  obtain rfl := Option.some.inj hlimit
  decide

theorem derivesLimit_reversedPair : reversedPair.DerivesLimit := by
  show blocksPerMultiprocessor * reversedPair.multiprocessors.toNat < Word.limit
  decide

/-- Eight elements and a stencil value for each of them; the last value belongs to no element. -/
def octet : Placed Nat := ⟨#[0, 1, 2, 3, 4, 5, 6, 7], 0⟩

def octetStencil : Array Nat := #[0, 7, 0, 0, 0, 7, 9, 0, 9]

/-- The later block comes upon 7 in its first chunk and upon 9 only in the next one.  There is no room for any
element, but that is not looked at. -/
theorem predicate_faults_reported_choosy :
    let result := copyIf reversedPair (.cloned 8) octet octetStencil (.ofPartial choosy) 0 ⟨#[], .start 8⟩
    result.1 = .error (.error (.kernelFault 1 "seven")) ∧ result.2.output = #[] := by
  intro result
  have hall : ∀ index < 8, (stencilAlarm choosy octetStencil index).all (!·.isRelease) := by decide
  have hspeaks : ∀ index < octet.length, ∀ panic, stencilAlarm choosy octetStencil index = some panic →
      panic.isRelease = false := by
    intro index hindex panic hpanic
    have hrelease := hall index hindex
    rw [hpanic] at hrelease
    simpa using hrelease
  have hstencil : octet.length ≤ octetStencil.size := by decide
  obtain ⟨cut, hcut, hfault⟩ := (predicate_faults_reported equipped_reversedPair (by decide) hstencil hspeaks
    ⟨5, by decide, by decide⟩ 0 ⟨#[], .start 8⟩).1 derivesLimit_reversedPair
  obtain rfl := Except.ok.inj (forLaunch_reversedPair.symm.trans hcut)
  obtain ⟨block, panic, journal, hblames, _, hresult⟩ := hfault.reports
  obtain ⟨index, hcomes, hpanic⟩ := hblames.element
  have hblock : block < 2 := hblames.lt
  -- the earlier block does not begin
  obtain rfl : block = 1 := by
    by_contra hne
    obtain rfl : block = 0 := by omega
    have hnone := hblames.before 1 (by decide) Nat.zero_lt_one 5 (by decide) (by decide)
    exact absurd hnone (by decide)
  -- the second chunk does not count
  have hfirst := hcomes.first 5 (by decide) (by decide) (by decide)
  have hle : 4 ≤ index := hcomes.start_le
  have hlt : index < 8 := hcomes.lt_stop
  obtain rfl : index = 5 := by
    have hsecond : (index - 4) / 2 ≤ 0 := hfirst
    have hcalm : index ≠ 4 := by
      rintro rfl
      cases hpanic
    omega
  obtain rfl := Option.some.inj hpanic
  have hall : result = _ := hresult
  rw [hall]
  exact ⟨rfl, rfl⟩

end Compaction

end BlockMachine
