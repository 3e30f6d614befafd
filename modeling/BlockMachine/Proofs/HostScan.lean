import BlockMachine.HostScan

/-!
# What a scan on the host computes

* `HostScan.fold?` — the elements of a list combined from the left.
* `HostScan.fold?_append` — for an associative operator a list can be combined in two parts.
* `HostScan.into_spec` — entry `k` of a scan is the first `k + 1` elements combined from the left, and
  entries past the input are left as they were.
* `HostScan.inPlace_of_steps` — a scan in place with an operator that goes from each entry to the next.
-/

set_option autoImplicit false

namespace BlockMachine

namespace HostScan

variable {α : Type} {op : α → α → α}

/-- An operator that never panics, as a scan takes it. -/
def total (op : α → α → α) : α → α → Except Panic α := fun left right => .ok (op left right)

/-- The elements of a list combined from the left. -/
def fold? (op : α → α → α) : List α → Option α
  | [] => none
  | first :: rest => some (rest.foldl op first)

/-- For an associative operator a list can be combined in two parts. -/
theorem fold?_append (hassoc : ∀ a b c, op (op a b) c = op a (op b c)) {left right : List α} {a b : α}
    (hl : fold? op left = some a) (hr : fold? op right = some b) :
    fold? op (left ++ right) = some (op a b) := by
  have : Std.Associative op := ⟨hassoc⟩
  cases left with
  | nil => cases hl
  | cons first left =>
    cases right with
    | nil => cases hr
    | cons second right =>
      obtain rfl := Option.some.inj hl
      obtain rfl := Option.some.inj hr
      rw [List.cons_append, fold?, List.foldl_append, List.foldl_cons, List.foldl_assoc]

/-- The rest of a scan goes on from the entry written last. -/
theorem intoFrom_some_spec (op : α → α → α) :
    ∀ (carry : α) (input output : List α), input.length ≤ output.length →
      (intoFrom (total op) (some carry) input output).result = .ok () ∧
      ∀ i, (intoFrom (total op) (some carry) input output).output[i]? =
        if i < input.length then some ((input.take (i + 1)).foldl op carry) else output[i]?
  | carry, [], output, _ => by
    cases output with
    | nil => exact ⟨rfl, fun i => rfl⟩
    | cons entry output => exact ⟨rfl, fun i => rfl⟩
  | carry, value :: input, [], h => absurd h (by simp)
  | carry, value :: input, entry :: output, h => by
    obtain ⟨hresult, hentries⟩ :=
      intoFrom_some_spec op (op carry value) input output (Nat.le_of_succ_le_succ h)
    refine ⟨hresult, fun i => ?_⟩
    cases i with
    | zero => rfl
    | succ i =>
      have hstep : (intoFrom (total op) (some carry) (value :: input)
          (entry :: output)).output[i + 1]? =
            (intoFrom (total op) (some (op carry value)) input output).output[i]? := rfl
      rw [hstep, hentries i]
      simp only [List.length_cons, Nat.add_lt_add_iff_right, List.take_succ_cons, List.foldl_cons,
        List.getElem?_cons_succ]

/-- **Entry `k` of a scan is the first `k + 1` elements combined from the left**, and entries past the
input are left as they were. -/
theorem into_spec (op : α → α → α) {input output : List α} (h : input.length ≤ output.length) :
    (into (total op) input output).result = .ok () ∧
    ∀ i, (into (total op) input output).output[i]? =
      if i < input.length then fold? op (input.take (i + 1)) else output[i]? := by
  rw [into, if_neg (Nat.not_lt.mpr h)]
  cases input with
  | nil => cases output <;> exact ⟨rfl, fun i => rfl⟩
  | cons value input =>
    cases output with
    | nil => simp at h
    | cons entry output =>
      obtain ⟨hresult, hentries⟩ :=
        intoFrom_some_spec op value input output (Nat.le_of_succ_le_succ h)
      refine ⟨hresult, fun i => ?_⟩
      cases i with
      | zero => rfl
      | succ i =>
        have hstep : (intoFrom (total op) none (value :: input) (entry :: output)).output[i + 1]? =
            (intoFrom (total op) (some value) input output).output[i]? := rfl
        rw [hstep, hentries i]
        simp only [List.length_cons, Nat.add_lt_add_iff_right, List.take_succ_cons, fold?,
          List.getElem?_cons_succ]

/-- The remaining turns of a scan in place, whose operator goes from each entry to the next. -/
theorem inPlaceFrom_of_steps {op : α → α → Except Panic α} {data : Array α} {entries : Nat → α}
    (hstep : ∀ k value, data[k + 1]? = some value → op (entries k) value = .ok (entries (k + 1))) :
    ∀ (turns index : Nat) (current : Array α), 0 < index → index + turns = data.size →
      current.size = data.size → (∀ i < index, current[i]? = some (entries i)) →
      (∀ i, index ≤ i → current[i]? = data[i]?) →
      (inPlaceFrom op turns index current).result = .ok () ∧
      (inPlaceFrom op turns index current).output = (List.range data.size).map entries
  | 0, index, current, _, hturns, hsize, hdone, _ => by
    refine ⟨rfl, ?_⟩
    show current.toList = _
    apply List.ext_getElem?
    intro i
    rw [Array.getElem?_toList, List.getElem?_map]
    by_cases hi : i < data.size
    · rw [hdone i (by omega), List.getElem?_range hi]
      rfl
    · rw [Array.getElem?_eq_none (by omega), List.getElem?_eq_none (by simp; omega)]
      rfl
  | turns + 1, index, current, hindex, hturns, hsize, hdone, hrest => by
    have hlt : index < data.size := by omega
    have hright : current[index]? = some data[index] := by
      rw [hrest index (Nat.le_refl _), Array.getElem?_eq_getElem hlt]
    have hprevious : index - 1 + 1 = index := Nat.sub_add_cancel hindex
    have hop : op (entries (index - 1)) data[index] = .ok (entries index) := by
      have h := hstep (index - 1) data[index] (by rw [hprevious, Array.getElem?_eq_getElem hlt])
      rwa [hprevious] at h
    have hnext := inPlaceFrom_of_steps hstep turns (index + 1)
      (current.setIfInBounds index (entries index)) (Nat.succ_pos _) (by omega)
      (by rw [Array.size_setIfInBounds, hsize]) (fun i hi => ?_) fun i hi => ?_
    · simp only [inPlaceFrom, hdone (index - 1) (by omega), hright, hop]
      exact hnext
    · by_cases he : i = index
      · rw [he, Array.getElem?_setIfInBounds_self_of_lt (by omega)]
      · rw [Array.getElem?_setIfInBounds_ne (Ne.symm he)]
        exact hdone i (by omega)
    · rw [Array.getElem?_setIfInBounds_ne (by omega)]
      exact hrest i (by omega)

/-- **A scan in place** whose operator goes from each entry to the next leaves these entries. -/
theorem inPlace_of_steps (op : α → α → Except Panic α) (entries : Nat → α) {data : List α}
    (hfirst : ∀ value, data[0]? = some value → value = entries 0)
    (hstep : ∀ k value, data[k + 1]? = some value → op (entries k) value = .ok (entries (k + 1))) :
    (inPlace op data).result = .ok () ∧
      (inPlace op data).output = (List.range data.length).map entries := by
  cases data with
  | nil => exact ⟨rfl, rfl⟩
  | cons first rest =>
    have hstep' : ∀ k value, (first :: rest).toArray[k + 1]? = some value →
        op (entries k) value = .ok (entries (k + 1)) :=
      fun k value hvalue => hstep k value (by rwa [List.getElem?_toArray] at hvalue)
    have hspec := inPlaceFrom_of_steps hstep' rest.length 1 (first :: rest).toArray Nat.one_pos
      (by simp [Nat.add_comm]) rfl (fun i hi => ?_) fun _ _ => rfl
    · rw [List.size_toArray] at hspec
      exact hspec
    · obtain rfl : i = 0 := by omega
      simp [hfirst first rfl]

end HostScan

end BlockMachine
