import BlockMachine.BlockScan
import BlockMachine.Proofs.HostScan
import Mathlib.Data.Nat.Log

/-!
# Windows of a scan

After some rounds of a scan each slot holds the value of an expression over the slots as they were at
first.  The expression is the same for every operator, every number of slots and every block.

* `Expression` — a tree whose leaves are slots; `Expression.value` is its value for an operator.
* `BlockScan.window` — the expression of a slot after a number of rounds, and
  `BlockScan.leaves_window` says which slots it takes, and in which order.
* `BlockScan.tree` — the expression of a slot at the end, and `BlockScan.leaves_tree` its leaves.
* `Expression.value_of_assoc` — for an associative operator only the order of the leaves matters.
-/

set_option autoImplicit false

namespace BlockMachine

/-- An expression over the slots of a block. -/
inductive Expression where
  | leaf (slot : Nat)
  | node (left right : Expression)
  deriving DecidableEq, Repr

namespace Expression

variable {σ : Type}

/-- The slots of an expression, from left to right. -/
def leaves : Expression → List Nat
  | leaf slot => [slot]
  | node left right => left.leaves ++ right.leaves

/-- The value of an expression over some slots; there is none if a slot is missing. -/
def value (op : σ → σ → σ) (slots : Array σ) : Expression → Option σ
  | leaf slot => slots[slot]?
  | node left right => do return op (← left.value op slots) (← right.value op slots)

theorem leaves_ne_nil (tree : Expression) : tree.leaves ≠ [] := by
  induction tree with
  | leaf slot => exact List.cons_ne_nil _ _
  | node left right ihl _ => exact List.append_ne_nil_of_left_ne_nil ihl _

theorem value_node {op : σ → σ → σ} {slots : Array σ} {left right : Expression} {a b : σ}
    (hl : left.value op slots = some a) (hr : right.value op slots = some b) :
    (node left right).value op slots = some (op a b) := by
  simp only [value, hl, hr]
  rfl

/-- An expression has a value if all its slots are there. -/
theorem exists_value (op : σ → σ → σ) {slots : Array σ} {tree : Expression}
    (h : ∀ slot ∈ tree.leaves, slot < slots.size) : ∃ result, tree.value op slots = some result := by
  induction tree with
  | leaf slot =>
    have hslot := h slot List.mem_cons_self
    exact ⟨slots[slot], Array.getElem?_eq_getElem hslot⟩
  | node left right ihl ihr =>
    obtain ⟨a, ha⟩ := ihl fun slot hslot => h slot (List.mem_append_left _ hslot)
    obtain ⟨b, hb⟩ := ihr fun slot hslot => h slot (List.mem_append_right _ hslot)
    exact ⟨op a b, value_node ha hb⟩

/-- **For an associative operator only the order of the leaves matters.** -/
theorem value_of_assoc {op : σ → σ → σ} (hassoc : ∀ a b c, op (op a b) c = op a (op b c))
    {slots : Array σ} {tree : Expression} {values : List σ}
    (h : tree.leaves.map (fun slot => slots[slot]?) = values.map some) :
    tree.value op slots = HostScan.fold? op values := by
  induction tree generalizing values with
  | leaf slot =>
    obtain ⟨value, rfl⟩ : ∃ value, values = [value] := by
      have hlength := congrArg List.length h
      simp only [leaves, List.length_map, List.length_cons, List.length_nil] at hlength
      exact List.length_eq_one_iff.mp hlength.symm
    exact List.head_eq_of_cons_eq h
  | node left right ihl ihr =>
    rw [leaves, List.map_append] at h
    obtain ⟨first, second, rfl, hfirst, hsecond⟩ := List.map_eq_append_iff.mp h.symm
    have hne : ∀ (tree : Expression) {values : List σ},
        values.map some = tree.leaves.map (fun slot => slots[slot]?) → ∃ result,
          HostScan.fold? op values = some result := by
      intro tree values hvalues
      cases values with
      | nil => exact absurd (List.map_eq_nil_iff.mp hvalues.symm) tree.leaves_ne_nil
      | cons value values => exact ⟨_, rfl⟩
    obtain ⟨a, ha⟩ := hne left hfirst
    obtain ⟨b, hb⟩ := hne right hsecond
    rw [HostScan.fold?_append hassoc ha hb]
    exact value_node ((ihl hfirst.symm).trans ha) ((ihr hsecond.symm).trans hb)

end Expression

namespace BlockScan

/-- The distance of round `k`. -/
def distance (k : Nat) : Nat := Nat.pow 2 k

theorem distance_zero : distance 0 = 1 := rfl

theorem distance_succ (k : Nat) : distance (k + 1) = 2 * distance k := by
  show Nat.pow 2 k * 2 = 2 * Nat.pow 2 k
  rw [Nat.mul_comm]

theorem distance_le_add (k more : Nat) : distance k ≤ distance (k + more) := by
  induction more with
  | zero => exact Nat.le_refl _
  | succ more ih =>
    rw [← Nat.add_assoc, distance_succ]
    omega

/-- The expression of slot `i` after `k` rounds: round `k` puts what the slot at its distance before
holds in front of it. -/
def window : (k i : Nat) → Expression
  | 0, i => .leaf i
  | k + 1, i => if distance k ≤ i then .node (window k (i - distance k)) (window k i) else window k i

theorem window_of_le {k i : Nat} (h : distance k ≤ i) :
    window (k + 1) i = .node (window k (i - distance k)) (window k i) := if_pos h

theorem window_of_lt {k i : Nat} (h : i < distance k) : window (k + 1) i = window k i :=
  if_neg (Nat.not_le.mpr h)

/-- **After `k` rounds slot `i` has taken up the slots that end with it**, as many as the distance of the
next round or all of them, each once and in order. -/
theorem leaves_window (k i : Nat) :
    (window k i).leaves = List.range' (i + 1 - min (distance k) (i + 1)) (min (distance k) (i + 1)) := by
  induction k generalizing i with
  | zero =>
    have hone : min (distance 0) (i + 1) = 1 := by
      rw [distance_zero]
      omega
    rw [hone, Nat.add_sub_cancel]
    rfl
  | succ k ih =>
    have hpow := distance_succ k
    by_cases h : distance k ≤ i
    · rw [window_of_le h, Expression.leaves, ih, ih]
      have hstart : i + 1 - min (distance (k + 1)) (i + 1) =
          i - distance k + 1 - min (distance k) (i - distance k + 1) := by omega
      have hcount : min (distance (k + 1)) (i + 1) =
          min (distance k) (i - distance k + 1) + min (distance k) (i + 1) := by omega
      have hmiddle : i + 1 - min (distance k) (i + 1) =
          i - distance k + 1 - min (distance k) (i - distance k + 1) +
            min (distance k) (i - distance k + 1) := by omega
      rw [hstart, hcount, hmiddle, List.range'_append_1]
    · have hlt := Nat.lt_of_not_le h
      rw [window_of_lt hlt, ih]
      have hmin : min (distance (k + 1)) (i + 1) = i + 1 := by omega
      have hmin' : min (distance k) (i + 1) = i + 1 := by omega
      rw [hmin, hmin']

/-- Rounds that reach past the first slot change nothing. -/
theorem window_add {k i : Nat} (h : i < distance k) (more : Nat) : window (k + more) i = window k i := by
  induction more with
  | zero => rfl
  | succ more ih =>
    have hlt : i < distance (k + more) := Nat.lt_of_lt_of_le h (distance_le_add k more)
    rw [← Nat.add_assoc, window_of_lt hlt, ih]

/-- The expression of a slot at the end of a scan.  It hangs on the slot alone. -/
def tree (i : Nat) : Expression := window (roundCount (i + 1)) i

/-- The rounds for `n` slots reach past the first one from everywhere. -/
theorem le_distance_roundCount (n : Nat) : n ≤ distance (roundCount n) := by
  unfold roundCount
  by_cases h : n ≤ 1
  · rw [if_pos h]
    exact h
  · rw [if_neg h]
    have hlt : n - 1 < distance (Nat.log2 (n - 1) + 1) := Nat.lt_log2_self
    omega

/-- The number of rounds of a scan is the logarithm, rounded up. -/
theorem roundCount_eq_clog (n : Nat) : roundCount n = Nat.clog 2 n := by
  unfold roundCount
  split
  · next hle => exact (Nat.clog_of_right_le_one hle 2).symm
  · next hlt =>
    have hne : n - 1 ≠ 0 := by omega
    -- both sides are at most the rounds that are enough for `n` slots
    apply eq_of_forall_ge_iff
    intro rounds
    rw [Nat.clog_le_iff_le_pow (by decide), Nat.succ_le_iff, Nat.log2_lt hne]
    omega

/-- There is a round for each distance below the number of slots, -/
theorem lt_roundCount_iff {n k : Nat} : k < roundCount n ↔ distance k < n := by
  rw [roundCount_eq_clog]
  exact Nat.lt_clog_iff_pow_lt (by decide)

/-- and behind it the distance can be doubled within a word, as long as there are no more than `2^63` slots. -/
theorem mul_distance {n k : Nat} (hn : n ≤ Word.allocationLimit) (hk : k < roundCount n) :
    Word.mul (distance k) 2 = .ok (distance (k + 1)) := by
  have hlt := lt_roundCount_iff.mp hk
  have hlimits : Word.allocationLimit * 2 = Word.limit := by decide
  rw [distance_succ, Nat.mul_comm 2]
  exact Word.mul_eq_ok (by omega)

theorem window_eq_tree {k i : Nat} (h : i < distance k) : window k i = tree i := by
  have hi : i < distance (roundCount (i + 1)) := le_distance_roundCount (i + 1)
  rcases Nat.le_total k (roundCount (i + 1)) with hle | hle
  · obtain ⟨more, hmore⟩ := Nat.exists_eq_add_of_le hle
    rw [tree, hmore, window_add h]
  · obtain ⟨more, hmore⟩ := Nat.exists_eq_add_of_le hle
    rw [tree, hmore, window_add hi]

/-- **At the end of a scan slot `i` has taken up slots `0, …, i`**, each once and in order. -/
theorem leaves_tree (i : Nat) : (tree i).leaves = List.range (i + 1) := by
  have hi : i + 1 ≤ distance (roundCount (i + 1)) := le_distance_roundCount (i + 1)
  rw [tree, leaves_window, Nat.min_eq_right hi, Nat.sub_self, List.range_eq_range']

/-- The tree of a slot that is there has a value. -/
theorem exists_value_tree {σ : Type} (op : σ → σ → σ) {slots : Array σ} {i : Nat}
    (h : i < slots.size) : ∃ result, (tree i).value op slots = some result := by
  apply Expression.exists_value
  intro slot hslot
  rw [leaves_tree, List.mem_range] at hslot
  omega

example : tree 5 = .node (.node (.leaf 0) (.leaf 1))
    (.node (.node (.leaf 2) (.leaf 3)) (.node (.leaf 4) (.leaf 5))) := by decide

end BlockScan

end BlockMachine
