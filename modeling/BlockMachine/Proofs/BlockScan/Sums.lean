import BlockMachine.Proofs.BlockScan.Rounds

/-!
# Scans of numbers

* `BlockScan.sums` — the numbers of the slots round by round.
* `BlockScan.values_sums` — a scan with checked sums does not overflow if the sum of all numbers is a word.
* `BlockScan.sums_last` — at the end slot `i` holds the sum of the first `i + 1` numbers.
-/

set_option autoImplicit false

namespace BlockMachine

namespace BlockScan

variable {α : Type} {callbacks : Callbacks Nat α} {n : Nat} {entries : Nat → Nat}

/-- The sum of the first `count` numbers. -/
def total (entries : Nat → Nat) : (count : Nat) → Nat
  | 0 => 0
  | count + 1 => total entries count + entries count

theorem total_zero (entries : Nat → Nat) : total entries 0 = 0 := rfl

theorem total_succ (entries : Nat → Nat) (count : Nat) :
    total entries (count + 1) = total entries count + entries count := rfl

theorem total_mono (entries : Nat → Nat) {count more : Nat} (h : count ≤ more) :
    total entries count ≤ total entries more := by
  induction more with
  | zero =>
    obtain rfl : count = 0 := Nat.le_zero.mp h
    exact Nat.le_refl _
  | succ more ih =>
    rcases Nat.lt_or_eq_of_le h with hlt | rfl
    · have hle := ih (Nat.le_of_lt_succ hlt)
      rw [total_succ]
      omega
    · exact Nat.le_refl _

theorem total_congr {others : Nat → Nat} {count : Nat} (h : ∀ index < count, entries index = others index) :
    total entries count = total others count := by
  induction count with
  | zero => rfl
  | succ count ih =>
    rw [total_succ, total_succ, ih fun index hindex => h index (Nat.lt_succ_of_lt hindex),
      h count (Nat.lt_succ_self count)]

theorem total_of_zero (h : ∀ index, entries index = 0) (count : Nat) : total entries count = 0 := by
  induction count with
  | zero => rfl
  | succ count ih => rw [total_succ, ih, h]

/-- The sum of the first numbers in two parts. -/
theorem total_add (entries : Nat → Nat) (start n : Nat) :
    total entries (start + n) = total entries start + total (fun i => entries (start + i)) n := by
  induction n with
  | zero => rfl
  | succ n ih =>
    rw [← Nat.add_assoc, total_succ, ih, total_succ, Nat.add_assoc]

/-- The number of slot `i` after `k` rounds: what the slots of its window add to those before them. -/
def sums (entries : Nat → Nat) (k i : Nat) : Nat :=
  total entries (i + 1) - total entries (i + 1 - distance k)

/-- A round adds up two windows, one after the other. -/
theorem sums_succ {entries : Nat → Nat} {k i : Nat} (h : distance k ≤ i) :
    sums entries (k + 1) i = sums entries k (i - distance k) + sums entries k i := by
  have hmiddle : i - distance k + 1 = i + 1 - distance k := by omega
  have hstart : i + 1 - distance (k + 1) = i + 1 - distance k - distance k := by
    rw [distance_succ]
    omega
  have hfirst := total_mono entries (Nat.sub_le (i + 1 - distance k) (distance k))
  have hsecond := total_mono entries (Nat.sub_le (i + 1) (distance k))
  rw [sums, sums, sums, hmiddle, hstart]
  omega

/-- A window that reaches the first slot does not grow. -/
theorem sums_succ_of_lt {entries : Nat → Nat} {k i : Nat} (h : i < distance k) :
    sums entries (k + 1) i = sums entries k i := by
  have hone : i + 1 - distance k = 0 := Nat.sub_eq_zero_of_le h
  have htwo : i + 1 - distance (k + 1) = 0 := by
    rw [distance_succ]
    omega
  rw [sums, sums, hone, htwo]

/-- **A scan with checked sums does not overflow** if the sum of all numbers is a word. -/
theorem values_sums (hcombine : callbacks.combine = Word.add) (hlimit : total entries n < Word.limit) :
    Values callbacks n (sums entries) := by
  refine ⟨fun k i hle hi => ?_, fun k i hlt => sums_succ_of_lt hlt⟩
  have hbound : sums entries (k + 1) i ≤ total entries n :=
    Nat.le_trans (Nat.sub_le ..) (total_mono entries hi)
  rw [sums_succ hle] at hbound
  rw [hcombine, sums_succ hle]
  exact Word.add_eq_ok (by omega)

theorem sums_zero (entries : Nat → Nat) (i : Nat) : sums entries 0 i = entries i := by
  unfold sums
  rw [distance_zero, Nat.add_sub_cancel, total_succ]
  omega

/-- **At the end slot `i` holds the sum of the first `i + 1` numbers.** -/
theorem sums_last {i : Nat} (h : i < n) : sums entries (roundCount n) i = total entries (i + 1) := by
  have hzero : i + 1 - distance (roundCount n) = 0 :=
    Nat.sub_eq_zero_of_le (Nat.le_trans h (le_distance_roundCount n))
  rw [sums, hzero, total_zero, Nat.sub_zero]

end BlockScan

end BlockMachine
