import BlockMachine.Compaction
import BlockMachine.Proofs.Compaction.Selected
import BlockMachine.Proofs.HostScan
import BlockMachine.Proofs.Launch.Stricter
import BlockMachine.Proofs.Reduction.Launch
import Mathlib.Algebra.Ring.Nat

/-!
# What the counting launch leaves

The flags may come from code that panics, or that answers otherwise the next time.  Even so no block counts
more flags than its interval has, unless the launch fails.

* `exists_lenient` — flags without panics that are as the given ones wherever those do not panic.
* `Reduction.reduceInOrder_error_of_long` — intervals that the word has no room for make a reduction fail.
* `Compaction.count_le` — a block has counted no more flags than its interval has.
* `Compaction.inPlace_ok_of_le` — then the counts can be summed within the word.
-/

set_option autoImplicit false

namespace BlockMachine

open BlockScan

variable {σ α : Type}

/-! ## Intervals that the word has no room for -/

namespace Reduction

/-- **Such a reduction fails**: its lanes do nothing but panic. -/
theorem reduceInOrder_error_of_long {order : Nat → List Nat} {config : LaunchConfig} {blank : σ}
    {op : σ → σ → Except Panic σ} {view : View σ} {cut : Decomposition} (store : Store σ)
    (hvalid : config.validate = .ok ()) (hlength : view.length = cut.total) (hcount : 0 < cut.count)
    (hsize : cut.count ≤ store.output.size) (horder : (order cut.count).Perm (List.range cut.count))
    (hlong : ¬ cut.shortLength + 1 < Word.limit) :
    ∃ failure after, reduceInOrder order config blank op view cut store = (.error failure, after) := by
  obtain ⟨hwidth, _⟩ := LaunchConfig.width_of_validate hvalid
  let stops : Nat → Nat → Stop σ σ Unit := fun _ _ => .faulted (.overflow .add)
  obtain ⟨plan, hplan⟩ := Plan.exists_of_intervals (kernel blank op view cut store.output.size)
    (config.geometry cut.count) store.journal.calls rfl cut (fun block _ stop => stop = stops block)
    fun block hblock => by
      refine ⟨[fun _ => []], stops block, .stop (fun lane _ => ?_) ?_ ⟨0, hwidth, rfl⟩, ?_, rfl⟩
      · show Lane.segment _ (Lane.ofExcept (cut.interval block) >>= _) _ = _
        rw [cut.interval_error hlong hblock]
        rfl
      · exact fun _ _ _ _ _ request hr => absurd hr List.not_mem_nil
      · simp [Stage.all]
  rw [reduceInOrder_eq order config blank op hlength hcount hsize]
  have hfaults : ∀ block < cut.count, Block.Faults config.width (plan.stops block) := by
    intro block hblock
    rw [hplan block hblock]
    exact ⟨0, hwidth, _, rfl, rfl⟩
  exact plan.launchInOrder_error hvalid horder rfl (fun block hblock => .inr (hfaults block hblock))
    ⟨0, hcount, hfaults 0 hcount⟩

end Reduction

/-! ## Flags without panics -/

/-- Flags of one item that never panic: those that the item has wherever it does not panic, and no more
constant than the item. -/
structure Lenient (item : Nat → Except Panic Nat) (flag : Nat → Nat) : Prop where
  small : ∀ earlier, flag earlier ≤ 1
  answers : ∀ earlier, item earlier = .ok (flag earlier) ∨ ∃ panic, item earlier = .error panic
  counts : (∃ earlier later, item earlier ≠ item later) → ∃ earlier later, flag earlier ≠ flag later

/-- **An item that may panic or change** has such flags. -/
theorem exists_lenient {item : Nat → Except Panic Nat}
    (hflags : ∀ earlier value, item earlier = .ok value → value ≤ 1) : ∃ flag, Lenient item flag := by
  by_cases hanswers : ∃ earlier value, item earlier = .ok value
  · -- what panics is given the other flag than one of the answers
    obtain ⟨early, value, hvalue⟩ := hanswers
    have hsmall := hflags early value hvalue
    refine ⟨fun earlier => (item earlier).toOption.getD (1 - value), fun earlier => ?_, fun earlier => ?_, ?_⟩
    · cases hitem : item earlier with
      | ok other => exact hflags earlier other hitem
      | error _ => exact Nat.sub_le ..
    · cases item earlier with
      | ok other => exact .inl rfl
      | error panic => exact .inr ⟨panic, rfl⟩
    · rintro ⟨earlier, later, hne⟩
      have hother : ∀ other panic, item other = .error panic →
          (item early).toOption.getD (1 - value) ≠ (item other).toOption.getD (1 - value) := by
        intro other panic hpanic
        rw [hvalue, hpanic]
        show value ≠ 1 - value
        omega
      cases hearlier : item earlier with
      | error panic => exact ⟨early, earlier, hother earlier panic hearlier⟩
      | ok first =>
        cases hlater : item later with
        | error panic => exact ⟨early, later, hother later panic hlater⟩
        | ok second =>
          refine ⟨earlier, later, fun heq => hne ?_⟩
          rw [hearlier, hlater] at heq ⊢
          exact congrArg Except.ok heq
  · -- the item always panics, and the flags tell its panics apart from the first one
    have hpanics : ∀ earlier, ∃ panic, item earlier = .error panic := by
      intro earlier
      cases hitem : item earlier with
      | ok value => exact absurd ⟨earlier, value, hitem⟩ hanswers
      | error panic => exact ⟨panic, rfl⟩
    refine ⟨fun earlier => if item earlier = item 0 then 0 else 1, fun earlier => by split <;> omega,
      fun earlier => .inr (hpanics earlier), ?_⟩
    rintro ⟨earlier, later, hne⟩
    by_cases hfirst : item earlier = item 0
    · exact ⟨0, later, by simp [hfirst ▸ hne.symm]⟩
    · exact ⟨0, earlier, by simp [hfirst]⟩

/-! ## Counts -/

/-- A slot keeps its value, or has the only one that is written there. -/
theorem Store.getElem?_after_of_pieces {slot : Nat} {value : α} {requests : List (Request σ α)}
    (h : ∀ piece ∈ Request.pieces (Element.cloned 1) slot 0 requests, piece = .inl value)
    (store : Store α) :
    (store.after (Element.cloned 1) requests).output[slot]? = store.output[slot]? ∨
      (store.after (Element.cloned 1) requests).output[slot]? = some value := by
  have hfold : ∀ (pieces : List (α ⊕ UInt8)) (held : Option (α ⊕ UInt8)),
      (∀ piece ∈ pieces, piece = .inl value) →
        pieces.foldl (fun held piece => held.map fun _ => piece) held = held ∨
          pieces.foldl (fun held piece => held.map fun _ => piece) held = some (.inl value) := by
    intro pieces
    induction pieces with
    | nil => exact fun _ _ => .inl rfl
    | cons piece rest ih =>
      intro held hall
      obtain rfl := hall piece List.mem_cons_self
      have hrest := ih (held.map fun _ => .inl value)
        fun other hother => hall other (List.mem_cons_of_mem _ hother)
      cases held with
      | none => exact hrest
      | some _ => exact .inr (hrest.elim id id)
  have hinl : Function.Injective (Option.map (Sum.inl : α → α ⊕ UInt8)) :=
    Option.map_injective fun _ _ => Sum.inl.inj
  have hcontent : (Element.cloned 1).content (store.after (Element.cloned 1) requests).output slot 0 = _ :=
    content_after (Element.cloned 1) store requests Nat.one_pos
  have hall := hfold _ ((Element.cloned 1).content store.output slot 0) h
  rw [← hcontent] at hall
  exact hall.imp (fun hsame => hinl hsame) fun hwritten => hinl hwritten

namespace Reduction

/-- **A reduction that answers although some of its code panics** leaves in an entry what its block would carry
without the panics, or what was there before. -/
theorem entry_of_stricter {order : Nat → List Nat} {config : LaunchConfig} {blank : σ}
    {op : σ → σ → Except Panic σ} {view lenient : View σ} {cut : Decomposition} {items totals : Nat → σ}
    {store after : Store σ} (hvalid : config.validate = .ok ()) (hlength : view.length = cut.total)
    (hcut : cut.WithinWord) (hcount : 0 < cut.count) (hsize : cut.count ≤ store.output.size)
    (horder : (order cut.count).Perm (List.range cut.count))
    (hstrict : (⟨view.item, op, Element.cloned 1⟩ : Callbacks σ σ).Stricter
      ⟨lenient.item, op, Element.cloned 1⟩)
    (hgives : ∀ index < cut.total,
      lenient.item index (store.journal.calls[index]?.getD 0) = .ok (items index))
    (hfolds : ∀ block < cut.count, Folds ⟨lenient.item, op, Element.cloned 1⟩ items none
      (chunks ⟨cut.start block, cut.start (block + 1)⟩ config.width) (some (totals block)))
    (h : reduceInOrder order config blank op view cut store = (.ok (), after)) (block : Nat) :
    after.output[block]? = store.output[block]? ∨ after.output[block]? = some (totals block) := by
  obtain ⟨usual, hdoes⟩ := exists_plan_of_withinWord blank hvalid hcut hsize hgives hfolds
  obtain ⟨plan, hcurtailed⟩ := usual.exists_curtailed hstrict
    fun block hblock lane _ => ⟨(), (hdoes block hblock).ends lane⟩
  have hcalls : (logged cut store).journal.calls = store.journal.calls := rfl
  obtain ⟨⟨requests, hrequests, houtput⟩, _⟩ := plan.launchInOrder_leaves hvalid hcount horder hcalls
    fun block hblock => (hcurtailed block hblock).ends
  -- a slot is written by its own block alone
  have hpieces : ∀ piece ∈ Request.pieces (Element.cloned 1) block 0 requests,
      piece = .inl (totals block) := by
    intro piece hpiece
    obtain ⟨request, hr, hmade⟩ := List.mem_filterMap.mp hpiece
    obtain ⟨other, hother, hr⟩ := hrequests request hr
    have hmem : piece ∈ Request.pieces (Element.cloned 1) block 0 (usual.requests other) :=
      List.mem_filterMap.mpr ⟨request, (hcurtailed other hother).subset hr, hmade⟩
    have hwrites := (hdoes other hother).writes
    by_cases hown : block = other
    · obtain ⟨copy, hcopy, hall⟩ := hwrites.inside 0 _ rfl 0 Nat.one_pos
      rw [Nat.add_zero, ← hown] at hall
      rw [← hown, hall, List.mem_singleton] at hmem
      obtain rfl : copy = totals block := by
        rw [← hown] at hcopy
        exact hcopy.elim id fun hclone => (Except.ok.inj hclone).symm
      exact hmem
    · rw [hwrites.outside block (by rw [List.length_singleton]; omega) 0 Nat.one_pos] at hmem
      cases hmem
  have hleft : (launchInOrder order config (kernel blank op view cut store.output.size) cut.count
      config.width (logged cut store)).2.output = _ := houtput
  rw [← reduceInOrder_eq order config blank op hlength hcount hsize, h] at hleft
  rw [hleft]
  exact Store.getElem?_after_of_pieces hpieces _

end Reduction

namespace Compaction

variable {order : Nat → List Nat} {config : LaunchConfig} {flags : View Nat} {cut : Decomposition}
  {journal : Journal} {after : Store Nat}

/-- **A block has counted no more flags than its interval has**, if the launch answers. -/
theorem count_le (hvalid : config.validate = .ok ()) (hlength : flags.length = cut.total)
    (htotal : cut.total < Word.limit) (hcount : 0 < cut.count)
    (horder : (order cut.count).Perm (List.range cut.count))
    (hflags : ∀ index earlier value, flags.item index earlier = .ok value → value ≤ 1)
    (h : Reduction.reduceInOrder order config 0 Word.add flags cut
      ⟨Array.replicate cut.count 0, journal⟩ = (.ok (), after)) {block value : Nat}
    (hvalue : after.output[block]? = some value) :
    value ≤ cut.start (block + 1) - cut.start block := by
  have hsize : cut.count ≤ (Array.replicate cut.count 0).size := Nat.le_of_eq Array.size_replicate.symm
  by_cases hlong : cut.shortLength + 1 < Word.limit
  · obtain ⟨hwidth, _⟩ := LaunchConfig.width_of_validate hvalid
    choose lenient hlenient using fun index => exists_lenient (hflags index)
    let items : Nat → Nat := fun index => lenient index (journal.calls[index]?.getD 0)
    have hsmall : ∀ index, items index ≤ 1 := fun index => (hlenient index).small _
    have hsum : total items cut.total < Word.limit :=
      Nat.lt_of_le_of_lt (total_le_self hsmall cut.total) htotal
    let view : View Nat := ⟨flags.length, fun index earlier => .ok (lenient index earlier)⟩
    have hstrict : (⟨flags.item, Word.add, Element.cloned 1⟩ : Callbacks Nat Nat).Stricter
        ⟨view.item, Word.add, Element.cloned 1⟩ := by
      refine ⟨fun request sight => ?_, fun index hcounts => ?_⟩
      · cases request with
        | fetch index => exact (hlenient index).answers (sight.calls[index]?.getD 0)
        | _ => exact .inl rfl
      · obtain ⟨earlier, later, hne⟩ := (hlenient index).counts hcounts
        exact ⟨earlier, later, fun heq => hne (Except.ok.inj heq)⟩
    have hgives : ∀ index < cut.total, view.item index (journal.calls[index]?.getD 0) =
        .ok (items index) := fun _ _ => rfl
    have hentry := Reduction.entry_of_stricter hvalid hlength ⟨htotal, hlong⟩ hcount hsize horder hstrict
      hgives (fun block hblock => Reduction.folds_intervals _ rfl hwidth hsum hblock) h block
    rw [hvalue] at hentry
    rcases hentry with hblank | hcounted
    · rw [Array.getElem?_replicate] at hblank
      split at hblank
      · rw [Option.some.inj hblank]
        exact Nat.zero_le _
      · cases hblank
    · have hmono : cut.start block ≤ cut.start (block + 1) := cut.start_mono (Nat.le_succ block)
      have hadd := total_add items (cut.start block) (cut.start (block + 1) - cut.start block)
      have hle := total_le hsmall (cut.start block) (cut.start (block + 1) - cut.start block)
      rw [Nat.add_sub_cancel' hmono] at hadd
      rw [Option.some.inj hcounted]
      omega
  · obtain ⟨failure, store, hfails⟩ := Reduction.reduceInOrder_error_of_long
      ⟨Array.replicate cut.count 0, journal⟩ hvalid hlength hcount hsize horder hlong
    rw [h] at hfails
    cases hfails

/-- The first counts together are no more than the elements of their intervals. -/
theorem sum_take_le {counts : List Nat}
    (hle : ∀ (block value : Nat), counts[block]? = some value →
      value ≤ cut.start (block + 1) - cut.start block) (blocks : Nat) :
    (counts.take blocks).sum ≤ cut.start blocks := by
  induction blocks with
  | zero => exact Nat.zero_le _
  | succ blocks ih =>
    have hmono : cut.start blocks ≤ cut.start (blocks + 1) := cut.start_mono (Nat.le_succ blocks)
    rw [List.take_add_one, List.sum_append]
    cases hvalue : counts[blocks]? with
    | none => simpa using Nat.le_trans ih hmono
    | some value =>
      have hsmall := hle blocks value hvalue
      rw [Option.toList_some, List.sum_singleton]
      omega

/-- **The scan of the counts stays within the word**, if each of them is no more than its interval has. -/
theorem inPlace_ok_of_le {counts : List Nat} (htotal : cut.total < Word.limit)
    (hlength : counts.length ≤ cut.count)
    (hle : ∀ (block value : Nat), counts[block]? = some value →
      value ≤ cut.start (block + 1) - cut.start block) :
    (HostScan.inPlace Word.add counts).result = .ok () := by
  refine (HostScan.inPlace_of_steps Word.add (fun block => (counts.take (block + 1)).sum)
    (fun value hvalue => ?_) fun block value hvalue => ?_).1
  · rw [List.take_add_one, hvalue]
    simp
  · have hblock : block + 1 < counts.length := (List.getElem?_eq_some_iff.mp hvalue).1
    have hsum : (counts.take (block + 1 + 1)).sum = (counts.take (block + 1)).sum + value := by
      rw [List.take_add_one, hvalue, List.sum_append, Option.toList_some, List.sum_singleton]
    have hbound := sum_take_le hle (block + 1 + 1)
    have hstop : cut.start (block + 1 + 1) ≤ cut.total := cut.start_le_total (by omega)
    rw [hsum] at hbound ⊢
    exact Word.add_eq_ok (by omega)

end Compaction

end BlockMachine
