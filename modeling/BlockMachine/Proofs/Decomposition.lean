import BlockMachine.Decomposition

/-!
# What the intervals of a decomposition are

* `Decomposition.start` — where the interval of a block begins, in one formula.
* `Decomposition.WithinWord.interval_eq` — the interval of a block goes up to where the next one begins, and no sum
  on the way leaves the word.
* `Decomposition.eq_of_interval` — and if the word has no room for all sums, no other interval is given.
* `Decomposition.exists_block`, `Decomposition.block_unique` — each index is in exactly one interval.
-/

set_option autoImplicit false

namespace BlockMachine

/-- A computation that gives a result has come past its first part. -/
theorem exists_of_bind {β γ : Type} {value : Except Panic β} {rest : β → Except Panic γ} {result : γ}
    (h : (value >>= rest) = .ok result) : ∃ found, value = .ok found ∧ rest found = .ok result := by
  cases value with
  | ok found => exact ⟨found, rfl, h⟩
  | error panic => cases h

namespace Decomposition

variable {cut : Decomposition}

/-- Where the interval of a block begins. -/
def start (cut : Decomposition) (block : Nat) : Nat :=
  block * cut.shortLength + min block cut.longCount

theorem start_zero : cut.start 0 = 0 := by
  simp [start]

theorem start_succ (cut : Decomposition) (block : Nat) :
    cut.start (block + 1) =
      cut.start block + cut.shortLength + if block < cut.longCount then 1 else 0 := by
  unfold start
  rw [Nat.succ_mul]
  by_cases h : block < cut.longCount
  · rw [if_pos h]
    omega
  · rw [if_neg h]
    omega

/-- The last interval ends with the last index. -/
theorem start_count (h : 0 < cut.count) : cut.start cut.count = cut.total := by
  have hmod : cut.longCount < cut.count := Nat.mod_lt _ h
  have hdiv : cut.count * cut.shortLength + cut.longCount = cut.total :=
    Nat.div_add_mod cut.total cut.count
  rw [start, Nat.min_eq_right (Nat.le_of_lt hmod), hdiv]

theorem start_mono (cut : Decomposition) {block other : Nat} (h : block ≤ other) :
    cut.start block ≤ cut.start other := by
  induction other with
  | zero =>
    obtain rfl : block = 0 := Nat.le_zero.mp h
    exact Nat.le_refl _
  | succ other ih =>
    rcases Nat.lt_or_eq_of_le h with hlt | rfl
    · have hle := ih (Nat.le_of_lt_succ hlt)
      rw [start_succ]
      omega
    · exact Nat.le_refl _

theorem start_le_total {block : Nat} (h : block ≤ cut.count) : cut.start block ≤ cut.total := by
  rcases Nat.eq_zero_or_pos cut.count with hzero | hpos
  · have hblock : block = 0 := by omega
    rw [hblock, start_zero]
    exact Nat.zero_le _
  · rw [← start_count hpos]
    exact cut.start_mono h

/-- No interval is empty. -/
theorem start_lt_succ {block : Nat} (h : block < cut.count) :
    cut.start block < cut.start (block + 1) := by
  have hshort : 0 < cut.shortLength := Nat.div_pos cut.count_le_total (by omega)
  rw [start_succ]
  omega

/-- One of the longer intervals begins behind intervals of its own length, -/
theorem start_of_lt {block : Nat} (h : block < cut.longCount) :
    (cut.shortLength + 1) * block = cut.start block := by
  rw [start, Nat.min_eq_left (Nat.le_of_lt h), Nat.mul_comm, Nat.mul_succ]

/-- and one of the shorter intervals behind all longer ones and intervals of its own length. -/
theorem start_of_le {block : Nat} (h : cut.longCount ≤ block) :
    (cut.shortLength + 1) * cut.longCount + cut.shortLength * (block - cut.longCount) =
      cut.start block := by
  rw [start, Nat.min_eq_right h, Nat.succ_mul, Nat.add_right_comm, ← Nat.mul_add, Nat.add_sub_cancel' h,
    Nat.mul_comm]

/-- Whether the word has room for all indices and for the length of the longer intervals. -/
structure WithinWord (cut : Decomposition) : Prop where
  total : cut.total < Word.limit
  long : cut.shortLength + 1 < Word.limit

theorem WithinWord.of_total (h : cut.total + 1 < Word.limit) : cut.WithinWord := by
  have hshort : cut.shortLength ≤ cut.total := Nat.div_le_self ..
  exact ⟨by omega, by omega⟩

/-- **The interval of a block** goes up to where the next one begins. -/
theorem WithinWord.interval_eq (hcut : cut.WithinWord) {block : Nat} (h : block < cut.count) :
    cut.interval block = .ok ⟨cut.start block, cut.start (block + 1)⟩ := by
  have htotal := hcut.total
  have hstop : cut.start (block + 1) ≤ cut.total := start_le_total h
  have hlong : Word.add cut.shortLength 1 = .ok (cut.shortLength + 1) :=
    Word.add_eq_ok hcut.long
  unfold interval
  simp only [Nat.not_le.mpr h, if_false, hlong]
  by_cases hblock : block < cut.longCount
  · -- one of the longer intervals
    have hstart := start_of_lt hblock
    have hsucc : cut.start (block + 1) = cut.start block + cut.shortLength + 1 := by
      rw [start_succ, if_pos hblock]
    simp only [hblock, if_true]
    show (do
      let first ← Word.mul (cut.shortLength + 1) block
      let stop ← Word.add first (cut.shortLength + 1)
      return (⟨first, stop⟩ : Interval)) = _
    rw [Word.mul_eq_ok (by omega), hstart]
    show (do
      let stop ← Word.add (cut.start block) (cut.shortLength + 1)
      return (⟨cut.start block, stop⟩ : Interval)) = _
    rw [Word.add_eq_ok (by omega), ← Nat.add_assoc, ← hsucc]
    rfl
  · have hle := Nat.le_of_not_lt hblock
    have hparts := start_of_le hle
    have hsucc : cut.start (block + 1) = cut.start block + cut.shortLength := by
      rw [start_succ, if_neg hblock]
      rfl
    simp only [hblock, if_false]
    show (do
      let longPart ← Word.mul (cut.shortLength + 1) cut.longCount
      let shortPart ← Word.mul cut.shortLength (block - cut.longCount)
      let first ← Word.add longPart shortPart
      let stop ← Word.add first cut.shortLength
      return (⟨first, stop⟩ : Interval)) = _
    rw [Word.mul_eq_ok (by omega), Word.mul_eq_ok (by omega)]
    show (do
      let first ← Word.add ((cut.shortLength + 1) * cut.longCount)
        (cut.shortLength * (block - cut.longCount))
      let stop ← Word.add first cut.shortLength
      return (⟨first, stop⟩ : Interval)) = _
    rw [Word.add_eq_ok (by omega), hparts]
    show (do
      let stop ← Word.add (cut.start block) cut.shortLength
      return (⟨cut.start block, stop⟩ : Interval)) = _
    rw [Word.add_eq_ok (by omega), ← hsucc]
    rfl

theorem interval_eq (htotal : cut.total + 1 < Word.limit) {block : Nat} (h : block < cut.count) :
    cut.interval block = .ok ⟨cut.start block, cut.start (block + 1)⟩ :=
  (WithinWord.of_total htotal).interval_eq h

/-- If the word has no room for the length of the longer intervals, then no interval can be worked out. -/
theorem interval_error (hlong : ¬ cut.shortLength + 1 < Word.limit)
    {block : Nat} (hblock : block < cut.count) : cut.interval block = .error (.overflow .add) := by
  have hsum : Word.add cut.shortLength 1 = .error (.overflow .add) := if_neg hlong
  unfold interval
  rw [if_neg (Nat.not_le.mpr hblock), hsum]
  rfl

/-- **An interval that is given** is that of a block, also where other intervals leave the word. -/
theorem eq_of_interval {block : Nat} {interval : Interval} (h : cut.interval block = .ok interval) :
    block < cut.count ∧ interval = ⟨cut.start block, cut.start (block + 1)⟩ := by
  unfold Decomposition.interval at h
  by_cases hcount : cut.count ≤ block
  · rw [if_pos hcount] at h
    cases h
  refine ⟨Nat.lt_of_not_le hcount, ?_⟩
  rw [if_neg hcount] at h
  obtain ⟨long, hlong, h⟩ := exists_of_bind h
  obtain rfl := Word.eq_of_add hlong
  have hsucc := @start_succ cut block
  by_cases hblock : block < cut.longCount
  · rw [if_pos hblock] at h hsucc
    obtain ⟨first, hfirst, h⟩ := exists_of_bind h
    obtain ⟨stop, hstop, h⟩ := exists_of_bind h
    rw [← Except.ok.inj h, Word.eq_of_add hstop, Word.eq_of_mul hfirst, start_of_lt hblock, hsucc,
      Nat.add_assoc]
  · rw [if_neg hblock] at h hsucc
    obtain ⟨longPart, hlongPart, h⟩ := exists_of_bind h
    obtain ⟨shortPart, hshortPart, h⟩ := exists_of_bind h
    obtain ⟨first, hfirst, h⟩ := exists_of_bind h
    obtain ⟨stop, hstop, h⟩ := exists_of_bind h
    rw [← Except.ok.inj h, Word.eq_of_add hstop, Word.eq_of_add hfirst, Word.eq_of_mul hlongPart,
      Word.eq_of_mul hshortPart, start_of_le (Nat.le_of_not_lt hblock), hsucc, Nat.add_zero]

/-- Each index is in an interval. -/
theorem exists_block (hpos : 0 < cut.count) {index : Nat} (h : index < cut.total) :
    ∃ block < cut.count, cut.start block ≤ index ∧ index < cut.start (block + 1) := by
  have hreach : ∀ blocks ≤ cut.count, index < cut.start blocks →
      ∃ block < blocks, cut.start block ≤ index ∧ index < cut.start (block + 1) := by
    intro blocks
    induction blocks with
    | zero =>
      intro _ hlt
      rw [start_zero] at hlt
      exact absurd hlt (Nat.not_lt_zero _)
    | succ blocks ih =>
      intro hle hlt
      by_cases hbefore : index < cut.start blocks
      · obtain ⟨block, hblock, hindex⟩ := ih (by omega) hbefore
        exact ⟨block, by omega, hindex⟩
      · exact ⟨blocks, by omega, Nat.le_of_not_lt hbefore, hlt⟩
  exact hreach cut.count (Nat.le_refl _) (by rw [start_count hpos]; exact h)

/-- No index is in two intervals. -/
theorem block_unique (cut : Decomposition) {index block other : Nat} (hle : cut.start block ≤ index)
    (hlt : index < cut.start (block + 1)) (hle' : cut.start other ≤ index)
    (hlt' : index < cut.start (other + 1)) : block = other := by
  rcases Nat.lt_trichotomy block other with h | h | h
  · have hmono : cut.start (block + 1) ≤ cut.start other := cut.start_mono h
    omega
  · exact h
  · have hmono : cut.start (other + 1) ≤ cut.start block := cut.start_mono h
    omega

end Decomposition

end BlockMachine
