import BlockMachine.Proofs.Reduction.Panics

/-!
# The result of a block

What a block of a reduction carries to its end can be computed from the items of its interval: the slots of a scan
round by round, and then the chunks one after the other.  The computation stops where the view or the operator panics
for any lane.

* `Reduction.held` — what a lane holds after some rounds of a scan.
* `Reduction.chunkResult`, `Reduction.blockResult` — the results of a chunk and of a block.
* `Reduction.blockResult_eq_some_iff` — a block has this result if and only if it carries it to its end.
-/

set_option autoImplicit false

namespace BlockMachine

open BlockScan

namespace Reduction

variable {σ : Type}

/-- What lane `i` holds after `k` rounds of a scan, unless one of the combinations panics that led to it. -/
def held (op : σ → σ → Except Panic σ) (entry : Nat → Option σ) : Nat → Nat → Option σ
  | 0, i => entry i
  | k + 1, i =>
    if distance k ≤ i then do (op (← held op entry k (i - distance k)) (← held op entry k i)).toOption
    else held op entry k i

/-- The result of a chunk: what its last lane holds after the scan, if all lanes come to the end of it. -/
def chunkResult (view : View σ) (op : σ → σ → Except Panic σ) (chunk : Nat × Nat) : Option σ :=
  let last := held op (fun i => (view.item (chunk.1 + i) 0).toOption) (roundCount chunk.2)
  if ∀ i < chunk.2, (last i).isSome then last (chunk.2 - 1) else none

/-- What is carried on behind one more chunk. -/
def carryOn (view : View σ) (op : σ → σ → Except Panic σ) (carry : σ) (chunk : Nat × Nat) : Option σ := do
  (op carry (← chunkResult view op chunk)).toOption

/-- The result of a block: that of its first chunk, combined with those of the others one after the other. -/
def blockResult (view : View σ) (op : σ → σ → Except Panic σ) (width : Nat) (interval : Interval) : Option σ :=
  match chunks interval width with
  | [] => none
  | first :: rest => do rest.foldlM (carryOn view op) (← chunkResult view op first)

/-- Five numbers in two chunks of up to three. -/
example : blockResult (.ofArray #[7, 2, 1, 9, 4]) (fun a b : Int => .ok (a - b)) 3 ⟨0, 5⟩ =
    some (7 - (2 - 1) - (9 - 4)) := by decide

/-! ## Scans -/

theorem toOption_eq_some {β : Type} {answer : Except Panic β} {value : β} :
    answer.toOption = some value ↔ answer = .ok value := by
  cases answer with
  | ok _ => exact ⟨fun h => congrArg _ (Option.some.inj h), fun h => congrArg _ (Except.ok.inj h)⟩
  | error _ => exact ⟨nofun, nofun⟩

section Scans

variable {callbacks : Callbacks σ σ} {entry : Nat → Option σ} {n : Nat}

/-- The values of a scan are what its lanes hold. -/
theorem held_of_values {values : Nat → Nat → σ} (hentries : ∀ i < n, entry i = some (values 0 i))
    (hvalues : Values callbacks n values) :
    ∀ k, ∀ i < n, held callbacks.combine entry k i = some (values k i) := by
  intro k
  induction k with
  | zero => exact hentries
  | succ k ih =>
    intro i hi
    rw [held]
    by_cases hle : distance k ≤ i
    · rw [if_pos hle, ih i hi, ih (i - distance k) (by omega)]
      exact toOption_eq_some.mpr (hvalues.combine k i hle hi)
    · rw [if_neg hle, ih i hi, hvalues.stays k i (Nat.lt_of_not_le hle)]

/-- A lane that holds a value has held one in all rounds before. -/
theorem isSome_held {op : σ → σ → Except Panic σ} {k i : Nat} (more : Nat)
    (h : (held op entry (k + more) i).isSome) : (held op entry k i).isSome := by
  induction more with
  | zero => exact h
  | succ more ih =>
    refine ih ?_
    rw [← Nat.add_assoc, held] at h
    by_cases hle : distance (k + more) ≤ i
    · rw [if_pos hle] at h
      cases hright : held op entry (k + more) i with
      | some _ => rfl
      | none =>
        rw [hright] at h
        cases hleft : held op entry (k + more) (i - distance (k + more)) <;> rw [hleft] at h <;> cases h
    · rwa [if_neg hle] at h

/-- **What the lanes hold are the values of a scan**, if all come to the end of it. -/
theorem values_of_held (blank : σ)
    (h : ∀ i < n, (held callbacks.combine entry (roundCount n) i).isSome) :
    Values callbacks n fun k i => (held callbacks.combine entry k i).getD blank := by
  refine ⟨fun k i hle hi => ?_, fun k i hlt => by simp only [held, if_neg (Nat.not_le.mpr hlt)]⟩
  -- the round is one of those that are counted
  obtain ⟨more, hmore⟩ : ∃ more, roundCount n = k + 1 + more :=
    Nat.exists_eq_add_of_le (lt_roundCount_iff.mpr (Nat.lt_of_le_of_lt hle hi))
  have hheld : ∀ i < n, ∀ round ≤ k + 1, ∃ value, held callbacks.combine entry round i = some value := by
    intro i hi round hround
    obtain ⟨rest, hrest⟩ := Nat.exists_eq_add_of_le hround
    refine Option.isSome_iff_exists.mp (isSome_held (rest + more) ?_)
    rw [← Nat.add_assoc, ← hrest, ← hmore]
    exact h i hi
  obtain ⟨left, hleft⟩ := hheld (i - distance k) (by omega) k (Nat.le_succ k)
  obtain ⟨right, hright⟩ := hheld i hi k (Nat.le_succ k)
  obtain ⟨sum, hsum⟩ := hheld i hi (k + 1) (Nat.le_refl _)
  simp only [hleft, hright, hsum, Option.getD_some]
  rw [held, if_pos hle, hleft, hright] at hsum
  exact toOption_eq_some.mp hsum

end Scans

/-! ## Chunks and blocks -/

section Blocks

variable {view : View σ} {op : σ → σ → Except Panic σ} {items : Nat → σ} {start stop n width : Nat}
  {total : σ}

/-- A chunk has the last value of its scan as its result. -/
theorem chunkResult_of_values {values : Nat → Nat → σ} (hpos : 0 < n)
    (hgives : ∀ i < n, view.item (start + i) 0 = .ok (values 0 i))
    (hvalues : Values (⟨view.item, op, Element.cloned 1⟩ : Callbacks σ σ) n values) :
    chunkResult view op (start, n) = some (values (roundCount n) (n - 1)) := by
  have hheld : ∀ i < n, held op (fun i => (view.item (start + i) 0).toOption) (roundCount n) i =
      some (values (roundCount n) i) :=
    held_of_values (fun i hi => toOption_eq_some.mpr (hgives i hi)) hvalues _
  have hall : ∀ i < n, (held op (fun i => (view.item (start + i) 0).toOption) (roundCount n) i).isSome :=
    fun i hi => by rw [hheld i hi]; rfl
  rw [chunkResult]
  exact (if_pos hall).trans (hheld (n - 1) (by omega))

/-- A chunk with a result is scanned. -/
theorem exists_values_of_chunkResult (blank : σ) (h : chunkResult view op (start, n) = some total) :
    (∀ i < n, view.item (start + i) 0 = .ok (view.itemOr blank (start + i) 0)) ∧ ∃ values : Nat → Nat → σ,
      (∀ i < n, values 0 i = view.itemOr blank (start + i) 0) ∧
      Values (⟨view.item, op, Element.cloned 1⟩ : Callbacks σ σ) n values ∧
        values (roundCount n) (n - 1) = total := by
  rw [chunkResult] at h
  simp only at h
  split at h
  · next hall =>
    refine ⟨fun i hi => ?_, fun k i => (held op (fun i => (view.item (start + i) 0).toOption) k i).getD blank,
      fun i _ => rfl, values_of_held blank hall, by simp only [h, Option.getD_some]⟩
    have hentry := hall i hi
    rw [← Nat.zero_add (roundCount n)] at hentry
    obtain ⟨value, hvalue⟩ := Option.isSome_iff_exists.mp (isSome_held (roundCount n) hentry)
    have hitem : view.item (start + i) 0 = .ok value := toOption_eq_some.mp hvalue
    rw [View.itemOr, hitem]
    rfl
  · cases h

/-- What is carried on through some chunks, -/
theorem foldlM_of_folds {list : List (Nat × Nat)} (hchunked : Chunked width start stop list)
    (hgives : ∀ index, start ≤ index → index < stop → view.item index 0 = .ok (items index))
    {carry : σ} {last : Option σ} (h : Folds ⟨view.item, op, Element.cloned 1⟩ items (some carry) list last) :
    list.foldlM (carryOn view op) carry = last := by
  induction hchunked generalizing carry with
  | nil stop =>
    cases h
    rfl
  | @cons start stop n rest hpos hn hlater ih =>
    have hle := hlater.le
    cases h with
    | @cons _ _ _ _ values next _ entries rounds hnext later =>
      have hchunk : chunkResult view op (start, n) = some (values (roundCount n) (n - 1)) :=
        chunkResult_of_values hpos (fun i hi => by
          rw [entries i hi]
          exact hgives (start + i) (by omega) (by omega)) rounds
      have hcarry : carryOn view op carry (start, n) = some next := by
        rw [carryOn, hchunk]
        exact toOption_eq_some.mpr hnext
      rw [List.foldlM_cons, hcarry]
      exact ih (fun index hle => hgives index (by omega)) later

/-- and how it comes about. -/
theorem folds_of_foldlM (blank : σ) {list : List (Nat × Nat)} (hchunked : Chunked width start stop list)
    {carry : σ} (h : list.foldlM (carryOn view op) carry = some total) :
    (∀ index, start ≤ index → index < stop → view.item index 0 = .ok (view.itemOr blank index 0)) ∧
      Folds ⟨view.item, op, Element.cloned 1⟩ (view.itemOr blank · 0) (some carry) list (some total) := by
  induction hchunked generalizing carry with
  | nil stop =>
    obtain rfl := Option.some.inj h
    exact ⟨fun index hle hlt => absurd hlt (Nat.not_lt.mpr hle), .nil _⟩
  | @cons start stop n rest hpos hn hlater ih =>
    rw [List.foldlM_cons] at h
    obtain ⟨next, hcarry, hrest⟩ := Option.bind_eq_some_iff.mp h
    obtain ⟨entry, hchunk, hnext⟩ := Option.bind_eq_some_iff.mp hcarry
    obtain ⟨hgives, values, hentries, hvalues, rfl⟩ := exists_values_of_chunkResult blank hchunk
    obtain ⟨hlast, hfolds⟩ := ih hrest
    refine ⟨fun index hle hlt => ?_, .cons hentries hvalues (toOption_eq_some.mp hnext) hfolds⟩
    rcases Nat.lt_or_ge index (start + n) with hin | hout
    · have hitem := hgives (index - start) (by omega)
      rwa [Nat.add_sub_cancel' hle] at hitem
    · exact hlast index hout hlt

/-- **A block has a result if and only if it carries it to its end.** -/
theorem blockResult_eq_some_iff (blank : σ)
    (hpure : ∀ index earlier later, view.item index earlier = view.item index later) (hwidth : 0 < width)
    {interval : Interval} (hle : interval.start ≤ interval.stop) (calls : Array Nat) :
    blockResult view op width interval = some total ↔
      Gives (⟨view.item, op, Element.cloned 1⟩ : Callbacks σ σ) (view.itemOr blank · 0) interval.start
        interval.stop calls ∧
      Folds ⟨view.item, op, Element.cloned 1⟩ (view.itemOr blank · 0) none (chunks interval width)
        (some total) := by
  have hchunked := chunked_chunks hwidth interval hle
  have hgives : Gives (⟨view.item, op, Element.cloned 1⟩ : Callbacks σ σ) (view.itemOr blank · 0) interval.start
      interval.stop calls ↔ ∀ index, interval.start ≤ index → index < interval.stop →
        view.item index 0 = .ok (view.itemOr blank index 0) := by
    refine forall_congr' fun index => imp_congr_right fun _ => imp_congr_right fun _ => ?_
    show view.item index (calls[index]?.getD 0) = _ ↔ _
    rw [hpure index _ 0]
  rw [hgives, blockResult]
  obtain ⟨start, stop⟩ := interval
  generalize chunks ⟨start, stop⟩ width = list at hchunked
  simp only at hchunked ⊢
  cases hchunked with
  | nil => exact ⟨nofun, fun h => nomatch h.2⟩
  | @cons _ _ n rest hpos _ hlater =>
    have hstop := hlater.le
    constructor
    · intro h
      obtain ⟨entry, hchunk, hrest⟩ := Option.bind_eq_some_iff.mp h
      obtain ⟨hfirst, values, hentries, hvalues, rfl⟩ := exists_values_of_chunkResult blank hchunk
      obtain ⟨hlast, hfolds⟩ := folds_of_foldlM blank hlater hrest
      refine ⟨fun index hle hlt => ?_, .cons hentries hvalues rfl hfolds⟩
      rcases Nat.lt_or_ge index (start + n) with hin | hout
      · have hitem := hfirst (index - start) (by omega)
        rwa [Nat.add_sub_cancel' hle] at hitem
      · exact hlast index hout hlt
    · rintro ⟨hitems, hfolds⟩
      cases hfolds with
      | @cons _ _ _ _ values next _ entries rounds hnext later =>
        obtain rfl := Except.ok.inj hnext
        have hchunk : chunkResult view op (start, n) = some (values (roundCount n) (n - 1)) :=
          chunkResult_of_values hpos (fun i hi => by
            rw [entries i hi]
            exact hitems (start + i) (by omega) (by omega)) rounds
        simp only [hchunk]
        exact foldlM_of_folds hlater (fun index hle => hitems index (by omega)) later

end Blocks

end Reduction

end BlockMachine
