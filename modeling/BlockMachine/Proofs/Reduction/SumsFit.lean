import BlockMachine.Operator
import BlockMachine.Proofs.Reduction.Block
import Mathlib.Algebra.BigOperators.Intervals
import Mathlib.Algebra.Order.BigOperators.Group.Finset

/-!
# Checked sums in a block

A sum of fixed-width integers panics if it does not fit.  The lanes of a block add other parts of their interval
than a sum from left to right would: those windows of a chunk that their scan forms, and one chunk after the
other to what has come before.  So it is these sums that have to fit.

* `ChecksSums` — an operator that gives sums of integers if they fit, and panics if not.
* `sumOf`, `Reduction.windowSum` — the sum of an interval, and of the window of a lane.
* `Reduction.ScanFits`, `Reduction.SumsFit` — the sums that a scan and a block form fit.
* `Reduction.sumsFit_of_folds`, `Reduction.folds_of_sumsFit` — so they do if and only if the block has a result.
* `Reduction.LeftSumsFit` — the sums from left to right fit, and `Reduction.sumsFit_of_left` says when that is
  enough.
-/

set_option autoImplicit false

namespace BlockMachine

open BlockScan

variable {σ : Type}

/-! ## Checked sums -/

/-- Whether an integer is a value of the type. -/
def IntegerRange.Contains (range : IntegerRange) (n : Int) : Prop := range.low ≤ n ∧ n ≤ range.high

instance (range : IntegerRange) (n : Int) : Decidable (range.Contains n) :=
  inferInstanceAs (Decidable (_ ∧ _))

/-- An operator on the values of an integer type that gives their sum if it is one of them, and panics if not. -/
structure ChecksSums (range : IntegerRange) (toInt : σ → Int) (panic : Panic)
    (op : σ → σ → Except Panic σ) : Prop where
  contains : ∀ a, range.Contains (toInt a)
  fits : ∀ a b, range.Contains (toInt a + toInt b) → ∃ c, op a b = .ok c ∧ toInt c = toInt a + toInt b
  exceeds : ∀ a b, ¬ range.Contains (toInt a + toInt b) → op a b = .error panic

namespace IntegerRange

/-- The values of a fixed-width integer type. -/
def Value (range : IntegerRange) : Type := { n : Int // range.Contains n }

/-- The sum of two values, if it is one. -/
def add (range : IntegerRange) (a b : range.Value) : Except Panic range.Value :=
  if h : range.Contains (a.val + b.val) then .ok ⟨a.val + b.val, h⟩ else .error (.overflow .add)

/-- **The sums of any integer type are checked**, whether it has a sign or not. -/
theorem checksSums_add (range : IntegerRange) :
    ChecksSums range Subtype.val (.overflow .add) range.add :=
  ⟨Subtype.property, fun a b h => ⟨⟨a.val + b.val, h⟩, dif_pos h, rfl⟩, fun _ _ h => dif_neg h⟩

end IntegerRange

namespace NumberType

/-- A sum with a panic of its own checks the sums of its type if it tells whether they fit. -/
theorem checksSums_of_fits {range : IntegerRange} {toInt : σ → Int} {fits : σ → σ → Bool} {f : σ → σ → σ}
    (hcontains : ∀ a, range.Contains (toInt a))
    (hfits : ∀ a b, fits a b = true ↔ range.Contains (toInt a + toInt b))
    (hsum : ∀ a b, range.Contains (toInt a + toInt b) → toInt (f a b) = toInt a + toInt b) :
    ChecksSums range toInt (.raised (.literal "sum overflow")) fun a b =>
      if fits a b then .ok (f a b) else .error (.raised (.literal "sum overflow")) :=
  ⟨hcontains, fun a b h => ⟨f a b, if_pos ((hfits a b).mpr h), hsum a b h⟩,
    fun a b h => if_neg fun hfit => h ((hfits a b).mp hfit)⟩

theorem checksSums_int64 : ChecksSums (.signed UInt64.size) Int64.toInt (.raised (.literal "sum overflow"))
    (int64.apply .checkedAdd) := by
  have hcontains : ∀ a : Int64, (IntegerRange.signed UInt64.size).Contains a.toInt := fun a =>
    ⟨Int64.le_toInt a, Int.le_sub_one_of_lt (Int64.toInt_lt a)⟩
  have hsum : ∀ a b : Int64, (IntegerRange.signed UInt64.size).Contains (a.toInt + b.toInt) →
      (a + b).toInt = a.toInt + b.toInt := by
    rintro a b ⟨hlow, hhigh⟩
    simp only [IntegerRange.signed, UInt64.size] at hlow hhigh
    rw [Int64.toInt_add]
    exact Int.bmod_eq_of_le (by omega) (by omega)
  exact checksSums_of_fits hcontains
    (fun a b => by rw [beq_iff_eq]; exact ⟨fun h => h ▸ hcontains (a + b), hsum a b⟩) hsum

/-- The sums of an unsigned type are taken modulo the number of its values, and fit if that changes nothing. -/
theorem checksSums_unsigned {count : Nat} {toNat : σ → Nat} {f : σ → σ → σ} (hlt : ∀ a, toNat a < count)
    (hsum : ∀ a b, toNat (f a b) = (toNat a + toNat b) % count) :
    ChecksSums (.unsigned count) (fun a => toNat a) (.raised (.literal "sum overflow")) fun a b =>
      if toNat (f a b) == toNat a + toNat b then .ok (f a b)
      else .error (.raised (.literal "sum overflow")) := by
  have hcontains : ∀ n : Nat, (IntegerRange.unsigned count).Contains n ↔ n < count := by
    intro n
    simp only [IntegerRange.Contains, IntegerRange.unsigned]
    omega
  refine checksSums_of_fits (fun a => (hcontains _).mpr (hlt a)) (fun a b => ?_) fun a b h => ?_
  · rw [beq_iff_eq, hsum, ← Int.natCast_add, hcontains]
    refine ⟨fun h => ?_, Nat.mod_eq_of_lt⟩
    rw [← h, ← hsum]
    exact hlt (f a b)
  · rw [← Int.natCast_add, hcontains] at h
    rw [hsum, Nat.mod_eq_of_lt h, Int.natCast_add]

theorem checksSums_uint64 : ChecksSums (.unsigned UInt64.size) (fun a : UInt64 => (a.toNat : Int))
    (.raised (.literal "sum overflow")) (uint64.apply .checkedAdd) :=
  checksSums_unsigned UInt64.toNat_lt UInt64.toNat_add

theorem checksSums_uint8 : ChecksSums (.unsigned UInt8.size) (fun a : UInt8 => (a.toNat : Int))
    (.raised (.literal "sum overflow")) (uint8.apply .checkedAdd) :=
  checksSums_unsigned UInt8.toNat_lt UInt8.toNat_add

end NumberType

/-! ## Sums of intervals -/

/-- The sum of the amounts from `start` up to `stop`. -/
def sumOf (amount : Nat → Int) (start stop : Nat) : Int := ∑ index ∈ Finset.Ico start stop, amount index

section Sums

variable {amount : Nat → Int} {start middle stop : Nat}

theorem sumOf_self (amount : Nat → Int) (start : Nat) : sumOf amount start start = 0 := by
  rw [sumOf, Finset.Ico_self, Finset.sum_empty]

theorem sumOf_succ (amount : Nat → Int) (start : Nat) : sumOf amount start (start + 1) = amount start := by
  rw [sumOf, Nat.Ico_succ_singleton, Finset.sum_singleton]

theorem sumOf_add (hle : start ≤ middle) (hle' : middle ≤ stop) :
    sumOf amount start middle + sumOf amount middle stop = sumOf amount start stop :=
  Finset.sum_Ico_consecutive amount hle hle'

theorem sumOf_nonneg (h : ∀ index, start ≤ index → index < stop → 0 ≤ amount index) :
    0 ≤ sumOf amount start stop :=
  Finset.sum_nonneg fun index hindex => h index (Finset.mem_Ico.mp hindex).1 (Finset.mem_Ico.mp hindex).2

theorem sumOf_nonpos (h : ∀ index, start ≤ index → index < stop → amount index ≤ 0) :
    sumOf amount start stop ≤ 0 :=
  Finset.sum_nonpos fun index hindex => h index (Finset.mem_Ico.mp hindex).1 (Finset.mem_Ico.mp hindex).2

end Sums

namespace Reduction

/-! ## The sums of a chunk -/

/-- The sum that lane `i` holds after `k` rounds over a chunk: that of the window that ends with its item. -/
def windowSum (amount : Nat → Int) (start k i : Nat) : Int :=
  sumOf amount (start + (i + 1 - distance k)) (start + (i + 1))

section Windows

variable {amount : Nat → Int} {start k i : Nat}

theorem windowSum_zero (amount : Nat → Int) (start i : Nat) :
    windowSum amount start 0 i = amount (start + i) := by
  rw [windowSum, distance_zero, Nat.add_sub_cancel]
  exact sumOf_succ amount (start + i)

/-- A round adds up two windows, one after the other. -/
theorem windowSum_succ (h : distance k ≤ i) :
    windowSum amount start (k + 1) i = windowSum amount start k (i - distance k) + windowSum amount start k i := by
  have hmiddle : i - distance k + 1 = i + 1 - distance k := by omega
  have hstart : i + 1 - distance k - distance k = i + 1 - distance (k + 1) := by
    rw [distance_succ]
    omega
  rw [windowSum, windowSum, windowSum, hmiddle, hstart]
  exact (sumOf_add (by rw [distance_succ]; omega) (by omega)).symm

/-- A window that reaches the first item does not grow. -/
theorem windowSum_succ_of_lt (h : i < distance k) :
    windowSum amount start (k + 1) i = windowSum amount start k i := by
  have hone : i + 1 - distance k = 0 := Nat.sub_eq_zero_of_le h
  have htwo : i + 1 - distance (k + 1) = 0 := by
    rw [distance_succ]
    omega
  rw [windowSum, windowSum, hone, htwo]

/-- At the end the last lane of a chunk holds the sum of all its items. -/
theorem windowSum_last {n : Nat} (hpos : 0 < n) :
    windowSum amount start (roundCount n) (n - 1) = sumOf amount start (start + n) := by
  have hreach := le_distance_roundCount n
  rw [windowSum, Nat.sub_add_cancel hpos, Nat.sub_eq_zero_of_le hreach, Nat.add_zero]

end Windows

/-- Whether all sums fit that the scan of a chunk forms. -/
def ScanFits (range : IntegerRange) (amount : Nat → Int) (start n : Nat) : Prop :=
  ∀ k i, distance k ≤ i → i < n → range.Contains (windowSum amount start (k + 1) i)

section Scans

variable {range : IntegerRange} {toInt : σ → Int} {panic : Panic} {op : σ → σ → Except Panic σ}
  (hop : ChecksSums range toInt panic op) {callbacks lenient : Callbacks σ σ}
  (hcombine : callbacks.combine = op)
  (hlenient : ∀ a b c, op a b = .ok c → lenient.combine a b = .ok c) {amount : Nat → Int} {start n : Nat}
  {values : Nat → Nat → σ} (hentries : ∀ i < n, toInt (values 0 i) = amount (start + i))

include hop

/-- A sum that is given fits. -/
theorem sum_of_ok {a b c : σ} (h : op a b = .ok c) :
    range.Contains (toInt a + toInt b) ∧ toInt c = toInt a + toInt b := by
  by_cases hfits : range.Contains (toInt a + toInt b)
  · obtain ⟨sum, hsum, hvalue⟩ := hop.fits a b hfits
    obtain rfl := Except.ok.inj (h.symm.trans hsum)
    exact ⟨hfits, hvalue⟩
  · rw [hop.exceeds a b hfits] at h
    cases h

include hentries

/-- **The values of a scan are the sums of the windows**, as long as those that its rounds form fit. -/
theorem toInt_values (hstays : ∀ k i, i < distance k → values (k + 1) i = values k i)
    (hsum : ∀ k i, distance k ≤ i → i < n →
      toInt (values k (i - distance k)) = windowSum amount start k (i - distance k) →
      toInt (values k i) = windowSum amount start k i →
      op (values k (i - distance k)) (values k i) = .ok (values (k + 1) i)) :
    ∀ k i, i < n → toInt (values k i) = windowSum amount start k i := by
  intro k
  induction k with
  | zero =>
    intro i hi
    rw [hentries i hi, windowSum_zero]
  | succ k ih =>
    intro i hi
    by_cases hle : distance k ≤ i
    · have hleft := ih (i - distance k) (by omega)
      have hright := ih i hi
      rw [(sum_of_ok hop (hsum k i hle hi hleft hright)).2, hleft, hright, windowSum_succ hle]
    · have hlt := Nat.lt_of_not_le hle
      rw [hstays k i hlt, ih i hi, windowSum_succ_of_lt hlt]

include hcombine

/-- In a scan without panics all sums fit. -/
theorem scanFits_of_values (hvalues : Values callbacks n values) :
    ScanFits range amount start n ∧
      ∀ k i, i < n → toInt (values k i) = windowSum amount start k i := by
  have hsum : ∀ k i, distance k ≤ i → i < n →
      op (values k (i - distance k)) (values k i) = .ok (values (k + 1) i) :=
    fun k i hle hi => hcombine ▸ hvalues.combine k i hle hi
  have hwindows := toInt_values hop hentries hvalues.stays fun k i hle hi _ _ => hsum k i hle hi
  refine ⟨fun k i hle hi => ?_, hwindows⟩
  have hfits := (sum_of_ok hop (hsum k i hle hi)).1
  rwa [hwindows k (i - distance k) (by omega), hwindows k i hi, ← windowSum_succ hle] at hfits

include hlenient

/-- **A scan whose sums fit does not panic.** -/
theorem values_of_scanFits (hvalues : Values lenient n values) (hfits : ScanFits range amount start n) :
    Values callbacks n values := by
  have hsum : ∀ k i, distance k ≤ i → i < n →
      toInt (values k (i - distance k)) = windowSum amount start k (i - distance k) →
      toInt (values k i) = windowSum amount start k i →
      op (values k (i - distance k)) (values k i) = .ok (values (k + 1) i) := by
    intro k i hle hi hleft hright
    have hwindow := hfits k i hle hi
    rw [windowSum_succ hle, ← hleft, ← hright] at hwindow
    obtain ⟨sum, hsum, _⟩ := hop.fits _ _ hwindow
    have hsame := (hlenient _ _ _ hsum).symm.trans (hvalues.combine k i hle hi)
    rw [hsum, Except.ok.inj hsame]
  have hwindows := toInt_values hop hentries hvalues.stays hsum
  refine ⟨fun k i hle hi => ?_, hvalues.stays⟩
  rw [hcombine]
  exact hsum k i hle hi (hwindows k (i - distance k) (by omega)) (hwindows k i hi)

end Scans

/-! ## The sums of a block -/

/-- Whether all sums fit that a block forms which takes some chunks: those of the scan of each chunk, and all up
to its end. -/
def SumsFit (range : IntegerRange) (amount : Nat → Int) (first : Nat) (list : List (Nat × Nat)) : Prop :=
  ∀ chunk ∈ list, ScanFits range amount chunk.1 chunk.2 ∧
    range.Contains (sumOf amount first (chunk.1 + chunk.2))

/-- Whether all sums of an interval from left to right fit. -/
def LeftSumsFit (range : IntegerRange) (amount : Nat → Int) (interval : Interval) : Prop :=
  ∀ index, interval.start < index → index ≤ interval.stop → range.Contains (sumOf amount interval.start index)

section Blocks

variable {range : IntegerRange} {toInt : σ → Int} {panic : Panic} {op : σ → σ → Except Panic σ}
  (hop : ChecksSums range toInt panic op) {callbacks lenient : Callbacks σ σ}
  (hcombine : callbacks.combine = op) {items : Nat → σ} {width first start stop : Nat}
  {list : List (Nat × Nat)} (hchunked : Chunked width start stop list)

include hop

/-- What is carried after a chunk is the sum up to its end. -/
theorem contains_carried {carry : Option σ} {entry next : σ} {n : Nat} (hfirst : first ≤ start)
    (hcarry : carry.elim 0 toInt = sumOf (toInt ∘ items) first start)
    (hentry : toInt entry = sumOf (toInt ∘ items) start (start + n)) (hcombine : callbacks.combine = op)
    (h : carried callbacks carry entry = .ok next) :
    range.Contains (sumOf (toInt ∘ items) first (start + n)) ∧
      toInt next = sumOf (toInt ∘ items) first (start + n) := by
  rw [← sumOf_add hfirst (Nat.le_add_right start n), ← hentry, ← hcarry]
  cases carry with
  | none =>
    obtain rfl := Except.ok.inj h
    rw [Option.elim_none, Int.zero_add]
    exact ⟨hop.contains entry, rfl⟩
  | some carry =>
    rw [carried, hcombine] at h
    exact sum_of_ok hop h

include hcombine hchunked

/-- **In a block with a result all sums fit**, and the result is the sum of its items. -/
theorem sumsFit_of_folds {carry last : Option σ} (hfirst : first ≤ start)
    (hcarry : carry.elim 0 toInt = sumOf (toInt ∘ items) first start)
    (hfolds : Folds callbacks items carry list last) :
    SumsFit range (toInt ∘ items) first list ∧
      last.elim 0 toInt = sumOf (toInt ∘ items) first stop := by
  induction hchunked generalizing carry with
  | nil stop =>
    cases hfolds
    exact ⟨fun _ h => absurd h List.not_mem_nil, hcarry⟩
  | @cons start stop n rest hpos hn hlater ih =>
    cases hfolds with
    | @cons _ _ _ _ values next _ entries rounds hnext later =>
      have hentries : ∀ i < n, toInt (values 0 i) = (toInt ∘ items) (start + i) :=
        fun i hi => congrArg toInt (entries i hi)
      obtain ⟨hscan, hwindows⟩ := scanFits_of_values hop hcombine hentries rounds
      have hentry := (hwindows (roundCount n) (n - 1) (by omega)).trans (windowSum_last hpos)
      obtain ⟨hfits, hsum⟩ := contains_carried hop hfirst hcarry hentry hcombine hnext
      have hnext : (some next).elim 0 toInt = sumOf (toInt ∘ items) first (start + n) := hsum
      obtain ⟨hrest, hlast⟩ := ih (Nat.le_trans hfirst (Nat.le_add_right start n)) hnext later
      exact ⟨List.forall_mem_cons.mpr ⟨⟨hscan, hfits⟩, hrest⟩, hlast⟩

/-- **A block whose sums fit has a result**, the one that it would have without panics. -/
theorem folds_of_sumsFit (hlenient : ∀ a b c, op a b = .ok c → lenient.combine a b = .ok c)
    {carry last : Option σ} (hfirst : first ≤ start)
    (hcarry : carry.elim 0 toInt = sumOf (toInt ∘ items) first start)
    (hfolds : Folds lenient items carry list last) (hfits : SumsFit range (toInt ∘ items) first list) :
    Folds callbacks items carry list last := by
  induction hchunked generalizing carry with
  | nil stop =>
    cases hfolds
    exact .nil _
  | @cons start stop n rest hpos hn hlater ih =>
    obtain ⟨⟨hscan, htotal⟩, hrest⟩ := List.forall_mem_cons.mp hfits
    cases hfolds with
    | @cons _ _ _ _ values next _ entries rounds hnext later =>
      have hentries : ∀ i < n, toInt (values 0 i) = (toInt ∘ items) (start + i) :=
        fun i hi => congrArg toInt (entries i hi)
      have hvalues := values_of_scanFits hop hcombine hlenient hentries rounds hscan
      have hentry := ((scanFits_of_values hop hcombine hentries hvalues).2 (roundCount n) (n - 1)
        (by omega)).trans (windowSum_last hpos)
      -- what is carried on is the same
      have hsame : carried callbacks carry (values (roundCount n) (n - 1)) = .ok next := by
        cases carry with
        | none => exact hnext
        | some carry =>
          rw [← sumOf_add hfirst (Nat.le_add_right start n), ← hentry, ← hcarry] at htotal
          obtain ⟨sum, hsum, _⟩ := hop.fits _ _ htotal
          rw [carried, hlenient _ _ _ hsum] at hnext
          rw [carried, hcombine, hsum, Except.ok.inj hnext]
      have hsum := (contains_carried hop hfirst hcarry hentry hcombine hsame).2
      exact .cons entries hvalues hsame
        (ih (Nat.le_trans hfirst (Nat.le_add_right start n)) hsum later hrest)

end Blocks

/-! ## Sums from left to right -/

section Left

variable {range : IntegerRange} {amount : Nat → Int}

/-- A part of a sum of numbers of one sign lies between one of the numbers and the whole sum. -/
theorem contains_part {first start middle stop : Nat} (hfirst : first ≤ start) (hstart : start ≤ middle)
    (hmiddle : middle < stop)
    (hsign : (∀ index, first ≤ index → index < stop → 0 ≤ amount index) ∨
      ∀ index, first ≤ index → index < stop → amount index ≤ 0)
    (hlast : range.Contains (amount middle)) (hall : range.Contains (sumOf amount first (middle + 1))) :
    range.Contains (sumOf amount start (middle + 1)) := by
  have hsplit : sumOf amount first start + sumOf amount start (middle + 1) =
      sumOf amount first (middle + 1) := sumOf_add hfirst (by omega)
  have hend : sumOf amount start middle + amount middle = sumOf amount start (middle + 1) := by
    rw [← sumOf_succ amount middle]
    exact sumOf_add hstart (Nat.le_succ middle)
  obtain ⟨hlow, hhigh⟩ := hlast
  obtain ⟨hlow', hhigh'⟩ := hall
  rcases hsign with hpos | hneg
  · have hbefore : 0 ≤ sumOf amount first start :=
      sumOf_nonneg fun index hle hlt => hpos index hle (by omega)
    have hpart : 0 ≤ sumOf amount start middle :=
      sumOf_nonneg fun index hle hlt => hpos index (by omega) (by omega)
    exact ⟨by omega, by omega⟩
  · have hbefore : sumOf amount first start ≤ 0 :=
      sumOf_nonpos fun index hle hlt => hneg index hle (by omega)
    have hpart : sumOf amount start middle ≤ 0 :=
      sumOf_nonpos fun index hle hlt => hneg index (by omega) (by omega)
    exact ⟨by omega, by omega⟩

/-- **Numbers of one sign** can be added in any way if their sums from left to right fit. -/
theorem sumsFit_of_one_sign {width : Nat} (hwidth : 0 < width) {interval : Interval}
    (hle : interval.start ≤ interval.stop) (hcontains : ∀ index, range.Contains (amount index))
    (hsign : (∀ index, interval.start ≤ index → index < interval.stop → 0 ≤ amount index) ∨
      ∀ index, interval.start ≤ index → index < interval.stop → amount index ≤ 0)
    (hleft : LeftSumsFit range amount interval) :
    SumsFit range amount interval.start (chunks interval width) := by
  intro chunk hchunk
  obtain ⟨hstart, hpos, hstop⟩ := (chunked_chunks hwidth interval hle).within chunk hchunk
  refine ⟨fun k i _ hi => ?_, hleft _ (by omega) hstop⟩
  have hreach : 0 < distance (k + 1) := Nat.two_pow_pos (k + 1)
  have hpart : range.Contains
      (sumOf amount (chunk.1 + (i + 1 - distance (k + 1))) (chunk.1 + i + 1)) :=
    contains_part (by omega) (by omega) (show chunk.1 + i < interval.stop by omega) hsign (hcontains _)
      (hleft _ (by omega) (by omega))
  exact hpart

/-- **A block of one lane adds from left to right.** -/
theorem sumsFit_iff_of_width_one {interval : Interval} :
    SumsFit range amount interval.start (chunks interval 1) ↔ LeftSumsFit range amount interval := by
  have hchunks : chunks interval 1 =
      (List.range (interval.stop - interval.start)).map fun turn => (interval.start + turn, 1) := by
    unfold chunks Interval.length
    rw [Nat.sub_self, Nat.add_zero, Nat.div_one]
    refine List.map_congr_left fun turn hturn => ?_
    have hlt := List.mem_range.mp hturn
    show (interval.start + turn * 1, min 1 (interval.stop - (interval.start + turn * 1))) = _
    rw [Nat.mul_one, Nat.min_eq_left (by omega)]
  rw [SumsFit, hchunks, List.forall_mem_map]
  constructor
  · intro h index hlt hle
    have hturn := (h (index - interval.start - 1) (List.mem_range.mpr (by omega))).2
    rwa [show interval.start + (index - interval.start - 1) + 1 = index by omega] at hturn
  · intro h turn hturn
    have hlt := List.mem_range.mp hturn
    refine ⟨fun k i hle hi => ?_, h _ (by omega) (by omega)⟩
    -- one item is not added to any other one
    have hreach : 0 < distance k := Nat.two_pow_pos k
    omega

/-- **When the sums from left to right are all that matters**: with one lane for each block, for numbers without a
sign, and for numbers of one sign. -/
theorem sumsFit_of_left {width : Nat} (hwidth : 0 < width) {interval : Interval}
    (hle : interval.start ≤ interval.stop) (hcontains : ∀ index, range.Contains (amount index))
    (hcase : width = 1 ∨ 0 ≤ range.low ∨
      (∀ index, interval.start ≤ index → index < interval.stop → 0 ≤ amount index) ∨
      ∀ index, interval.start ≤ index → index < interval.stop → amount index ≤ 0)
    (hleft : LeftSumsFit range amount interval) :
    SumsFit range amount interval.start (chunks interval width) := by
  rcases hcase with rfl | hlow | hsign
  · exact sumsFit_iff_of_width_one.mpr hleft
  · have hpos : ∀ index, interval.start ≤ index → index < interval.stop → 0 ≤ amount index :=
      fun index _ _ => Int.le_trans hlow (hcontains index).1
    exact sumsFit_of_one_sign hwidth hle hcontains (.inl hpos) hleft
  · exact sumsFit_of_one_sign hwidth hle hcontains hsign hleft

end Left

end Reduction

end BlockMachine
