import BlockMachine.Proofs.BlockScan.Sums

/-!
# The selected elements

* `Compaction.selected` — the elements of an interval whose flag is not 0, in their order.
* `Compaction.mem_selected` — which elements these are.
* `Compaction.selected_add` — an interval can be taken in two parts.
* `Compaction.length_selected` — there are as many as the sum of the flags.
* `Compaction.getElem?_selected` — the place of a selected element is the number of those before it.
* `Compaction.selected_of_full` — if the sum is as large as the interval, all elements are selected.
-/

set_option autoImplicit false

namespace BlockMachine

open BlockScan

namespace Compaction

variable {α : Type} {items : Nat → Nat} {values : Array α}

/-- The elements with numbers `start, …, start + n - 1` whose flag is not 0. -/
def selected (items : Nat → Nat) (values : Array α) (start n : Nat) : List α :=
  (List.range' start n).filterMap fun index => if items index = 0 then none else values[index]?

theorem selected_zero (items : Nat → Nat) (values : Array α) (start : Nat) :
    selected items values start 0 = [] := rfl

theorem mem_selected {start n : Nat} {value : α} : value ∈ selected items values start n ↔
    ∃ index, start ≤ index ∧ index < start + n ∧ items index ≠ 0 ∧ values[index]? = some value := by
  unfold selected
  rw [List.mem_filterMap]
  constructor
  · rintro ⟨index, hindex, hvalue⟩
    obtain ⟨hle, hlt⟩ := List.mem_range'_1.mp hindex
    by_cases hzero : items index = 0
    · rw [if_pos hzero] at hvalue
      cases hvalue
    · rw [if_neg hzero] at hvalue
      exact ⟨index, hle, hlt, hzero, hvalue⟩
  · rintro ⟨index, hle, hlt, hitem, hvalue⟩
    exact ⟨index, List.mem_range'_1.mpr ⟨hle, hlt⟩, by rw [if_neg hitem, hvalue]⟩

/-- An interval can be taken in two parts. -/
theorem selected_add (items : Nat → Nat) (values : Array α) (start n more : Nat) :
    selected items values start (n + more) =
      selected items values start n ++ selected items values (start + n) more := by
  unfold selected
  rw [← List.range'_append_1, List.filterMap_append]

/-- The intervals of several parties together. -/
theorem flatMap_selected {bound : Nat → Nat} (hzero : bound 0 = 0) {count : Nat}
    (hmono : ∀ party < count, bound party ≤ bound (party + 1)) :
    (List.range count).flatMap (fun party =>
      selected items values (bound party) (bound (party + 1) - bound party)) =
        selected items values 0 (bound count) := by
  induction count with
  | zero => rw [hzero, selected_zero, List.range_zero, List.flatMap_nil]
  | succ count ih =>
    have hle := hmono count (Nat.lt_succ_self count)
    rw [List.range_succ, List.flatMap_append, ih fun party hparty => hmono party (Nat.lt_succ_of_lt hparty),
      List.flatMap_singleton]
    conv => rhs; rw [← Nat.add_sub_cancel' hle, selected_add, Nat.zero_add]

theorem selected_succ_of_zero {start n : Nat} (h : items (start + n) = 0) :
    selected items values start (n + 1) = selected items values start n := by
  rw [selected_add]
  simp [selected, h]

theorem selected_succ_of_ne_zero {start n : Nat} (h : items (start + n) ≠ 0) {value : α}
    (hvalue : values[start + n]? = some value) :
    selected items values start (n + 1) = selected items values start n ++ [value] := by
  rw [selected_add]
  simp [selected, h, hvalue]

/-- The sum of the flags of an interval. -/
theorem total_le (hflags : ∀ index, items index ≤ 1) (start n : Nat) :
    total (fun i => items (start + i)) n ≤ n := by
  induction n with
  | zero => exact Nat.le_refl _
  | succ n ih =>
    have hflag := hflags (start + n)
    rw [total_succ]
    omega

theorem total_le_self (hflags : ∀ index, items index ≤ 1) (n : Nat) : total items n ≤ n := by
  have hle := total_le hflags 0 n
  simpa using hle

/-- The number of selected elements of an interval. -/
def countIn (items : Nat → Nat) (start stop : Nat) : Nat :=
  total (fun i => items (start + i)) (stop - start)

/-- Intervals are counted from what lies before them. -/
theorem total_add_countIn (items : Nat → Nat) {start stop : Nat} (hle : start ≤ stop) :
    total items start + countIn items start stop = total items stop := by
  rw [countIn, ← total_add, Nat.add_sub_cancel' hle]

theorem countIn_add (items : Nat → Nat) {start middle stop : Nat} (hle : start ≤ middle)
    (hle' : middle ≤ stop) :
    countIn items start middle + countIn items middle stop = countIn items start stop := by
  have hfirst := total_add_countIn items hle
  have hsecond := total_add_countIn items hle'
  have hboth := total_add_countIn items (Nat.le_trans hle hle')
  omega

/-- **There are as many as the sum of the flags.** -/
theorem length_selected (hflags : ∀ index, items index ≤ 1) {start n : Nat}
    (hle : start + n ≤ values.size) :
    (selected items values start n).length = total (fun i => items (start + i)) n := by
  induction n with
  | zero => rfl
  | succ n ih =>
    have hrec := ih (by omega)
    have hvalue : values[start + n]? = some values[start + n] :=
      Array.getElem?_eq_getElem (by omega)
    rw [total_succ, ← hrec]
    by_cases h : items (start + n) = 0
    · rw [selected_succ_of_zero h, h, Nat.add_zero]
    · have hone : items (start + n) = 1 := by
        have hflag := hflags (start + n)
        omega
      rw [selected_succ_of_ne_zero h hvalue, List.length_append, hone]
      rfl

/-- The same from the first element on. -/
theorem length_selected_zero (hflags : ∀ index, items index ≤ 1) {n : Nat} (hle : n ≤ values.size) :
    (selected items values 0 n).length = total items n := by
  have hlength := length_selected hflags (by omega : 0 + n ≤ values.size)
  simpa using hlength

/-- More elements are selected before a later element than before a selected one. -/
theorem total_lt {index other : Nat} (hitem : items index ≠ 0) (hlt : index < other) :
    total items index < total items other := by
  have hmono := total_mono items (Nat.succ_le_of_lt hlt)
  rw [total_succ] at hmono
  omega

/-- No two selected elements have the same elements before them. -/
theorem eq_of_total_eq {index other : Nat} (hitem : items index ≠ 0) (hother : items other ≠ 0)
    (h : total items index = total items other) : index = other := by
  rcases Nat.lt_trichotomy index other with hlt | heq | hlt
  · exact absurd h (Nat.ne_of_lt (total_lt hitem hlt))
  · exact heq
  · exact absurd h.symm (Nat.ne_of_lt (total_lt hother hlt))

/-- **The place of a selected element** is the number of those before it. -/
theorem getElem?_selected (hflags : ∀ index, items index ≤ 1) {n : Nat} (hle : n ≤ values.size)
    {place : Nat} {value : α} : (selected items values 0 n)[place]? = some value ↔
      ∃ index < n, items index ≠ 0 ∧ total items index = place ∧ values[index]? = some value := by
  induction n with
  | zero =>
    rw [selected_zero]
    exact ⟨nofun, fun ⟨_, hindex, _⟩ => absurd hindex (Nat.not_lt_zero _)⟩
  | succ n ih =>
    have hvalue : values[0 + n]? = some values[n] := by
      rw [Nat.zero_add]
      exact Array.getElem?_eq_getElem hle
    have hrest := ih (Nat.le_of_succ_le hle)
    by_cases hitem : items (0 + n) = 0
    · rw [selected_succ_of_zero hitem, hrest]
      rw [Nat.zero_add] at hitem
      refine exists_congr fun index => and_congr_left fun ⟨hindex, _⟩ => ?_
      have hne : index ≠ n := fun he => hindex (he ▸ hitem)
      omega
    · have hlength : (selected items values 0 n).length = total items n :=
        length_selected_zero hflags (Nat.le_of_succ_le hle)
      rw [selected_succ_of_ne_zero hitem hvalue]
      rw [Nat.zero_add] at hitem hvalue
      rcases Nat.lt_or_ge place (total items n) with hlt | hge
      · rw [List.getElem?_append_left (hlength ▸ hlt), hrest]
        refine exists_congr fun index => and_congr_left fun ⟨_, hplace, _⟩ => ?_
        have hne : index ≠ n := by
          rintro rfl
          omega
        omega
      · rw [List.getElem?_append_right (hlength ▸ hge), hlength, List.getElem?_singleton]
        constructor
        · intro h
          by_cases hplace : place - total items n = 0
          · rw [if_pos hplace] at h
            exact ⟨n, Nat.lt_succ_self n, hitem, by omega, hvalue.trans h⟩
          · rw [if_neg hplace] at h
            cases h
        · rintro ⟨index, hindex, hindexItem, rfl, hindexValue⟩
          -- an earlier element would have an earlier place
          obtain rfl : index = n := by
            by_contra hne
            exact absurd hge (Nat.not_le.mpr (total_lt hindexItem (by omega)))
          rw [Nat.sub_self, if_pos rfl, ← hvalue, hindexValue]

/-- **If the sum is as large as the interval, all elements are selected.** -/
theorem selected_of_full (hflags : ∀ index, items index ≤ 1) {start n : Nat}
    (hle : start + n ≤ values.size) (hfull : total (fun i => items (start + i)) n = n) :
    selected items values start n = (values.extract start (start + n)).toList := by
  induction n with
  | zero => simp [selected]
  | succ n ih =>
    have hrest := total_le hflags start n
    have hflag := hflags (start + n)
    rw [total_succ] at hfull
    have hvalue : values[start + n]? = some values[start + n] :=
      Array.getElem?_eq_getElem (by omega)
    have hlt : start + n < values.size := by omega
    rw [selected_succ_of_ne_zero (by omega) hvalue, ih (by omega) (by omega), ← Nat.add_assoc,
      Array.extract_succ_right (by omega) hlt, Array.toList_push]

end Compaction

end BlockMachine
