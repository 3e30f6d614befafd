import BlockMachine.Operator
import BlockMachine.Proofs.HostScan

/-!
# The two scans on the host agree

The operator may panic at any application, and need not be associative.

* `HostScan.pass` — the work both scans share: the entries it computes and the applications it takes.
* `HostScan.intoFrom_eq`, `HostScan.inPlaceFrom_eq` — each scan is this work, over its own list.
* `HostScan.pass_applied`, `HostScan.pass_entry` — its arguments and its entries are left folds.
* `HostScan.pass_of_returns`, `HostScan.pass_of_panic` — how far it comes.
* `HostScan.into_agrees_with_inPlace` — the same applications, the same scanned entries, and behind
  the entry a panic stops at each list is as it was.
-/

set_option autoImplicit false

namespace BlockMachine

namespace HostScan

variable {α : Type} {op : α → α → Except Panic α}

/-- The elements of a list combined from the left, by an operator that may panic. -/
def combined (op : α → α → Except Panic α) : List α → Option (Except Panic α)
  | [] => none
  | first :: rest => some (rest.foldlM op first)

/-- The first entries of a list are those of a scan, and the others are as they were before. -/
structure ScannedTo (op : α → α → Except Panic α) (data before after : List α) (count : Nat) : Prop where
  /-- Each of the first entries is the left fold of the elements up to its own. -/
  scanned : ∀ i < count, ∃ value,
    after[i]? = some value ∧ combined op (data.take (i + 1)) = some (.ok value)
  /-- The other entries are as they were. -/
  rest : after.drop count = before.drop count

/-! ## The work both share -/

/-- The work on the elements after an entry: the entries computed, and the applications. -/
def pass (op : α → α → Except Panic α) : α → List α → ScanRun α
  | _, [] => ⟨.ok (), [], []⟩
  | carry, value :: input =>
    match op carry value with
    | .error panic => ⟨.error panic, [], [(carry, value)]⟩
    | .ok next =>
      let run := pass op next input
      ⟨run.result, next :: run.output, (carry, value) :: run.applied⟩

/-- The work ends at an application that panics. -/
theorem pass_cons_error {carry value : α} {input : List α} {panic : Panic}
    (hop : op carry value = .error panic) :
    pass op carry (value :: input) = ⟨.error panic, [], [(carry, value)]⟩ := by
  rw [pass, hop]

/-- The work goes on behind an application that returns. -/
theorem pass_cons_ok {carry value next : α} {input : List α} (hop : op carry value = .ok next) :
    pass op carry (value :: input) =
      ⟨(pass op next input).result, next :: (pass op next input).output,
        (carry, value) :: (pass op next input).applied⟩ := by
  rw [pass, hop]

/-- There is at most one entry for each element. -/
theorem pass_length_le (op : α → α → Except Panic α) :
    ∀ (carry : α) (input : List α), (pass op carry input).output.length ≤ input.length
  | _, [] => Nat.le_refl 0
  | carry, value :: input => by
    cases hop : op carry value with
    | error panic => rw [pass_cons_error hop]; exact Nat.zero_le _
    | ok next =>
      rw [pass_cons_ok hop]
      exact Nat.succ_le_succ (pass_length_le op next input)

/-- The rest of a scan into another list is this work, over the entries there. -/
theorem intoFrom_eq (op : α → α → Except Panic α) :
    ∀ (carry : α) (input output : List α), input.length ≤ output.length →
      intoFrom op (some carry) input output =
        ⟨(pass op carry input).result,
          (pass op carry input).output ++ output.drop (pass op carry input).output.length,
          (pass op carry input).applied⟩
  | carry, [], output, _ => by cases output <;> rfl
  | carry, value :: input, [], h => absurd h (by simp)
  | carry, value :: input, entry :: output, h => by
    cases hop : op carry value with
    | error panic => simp [intoFrom, hop, pass_cons_error hop]
    | ok next =>
      have hrest := intoFrom_eq op next input output (Nat.le_of_succ_le_succ h)
      simp only [intoFrom, hop, pass_cons_ok hop, hrest, List.length_cons, List.drop_succ_cons,
        List.cons_append]

/-- The remaining turns of a scan in place are this work, over the elements themselves. -/
theorem inPlaceFrom_eq (op : α → α → Except Panic α) :
    ∀ (done : List α) (carry : α) (input : List α),
      inPlaceFrom op input.length (done.length + 1) (done ++ carry :: input).toArray =
        ⟨(pass op carry input).result,
          done ++ carry :: ((pass op carry input).output ++
            input.drop (pass op carry input).output.length),
          (pass op carry input).applied⟩
  | done, carry, [] => rfl
  | done, carry, value :: input => by
    have hleft : (done ++ carry :: value :: input).toArray[done.length + 1 - 1]? = some carry := by
      simp
    have hright : (done ++ carry :: value :: input).toArray[done.length + 1]? = some value := by
      simp
    simp only [List.length_cons, inPlaceFrom, hleft, hright]
    cases hop : op carry value with
    | error panic => simp [pass_cons_error hop]
    | ok next =>
      -- the entry just written is the carry of the next turn
      have hset : (done ++ carry :: value :: input).toArray.setIfInBounds (done.length + 1) next =
          ((done ++ [carry]) ++ next :: input).toArray := by
        simp [List.set_append_right]
      have hrest := inPlaceFrom_eq op (done ++ [carry]) next input
      rw [List.length_append, List.length_singleton] at hrest
      simp only [hset, hrest, pass_cons_ok hop]
      simp only [List.length_cons, List.drop_succ_cons, List.append_assoc, List.cons_append,
        List.nil_append]

/-! ## Its arguments, its entries and its end -/

/-- An application takes the left fold of the elements before its own, and this element. -/
theorem pass_applied : ∀ {carry : α} {input : List α} {k : Nat} {left right : α},
    (pass op carry input).applied[k]? = some (left, right) →
    (input.take k).foldlM op carry = .ok left ∧ input[k]? = some right
  | carry, [], k, left, right, h => by simp [pass] at h
  | carry, value :: input, k, left, right, h => by
    cases hop : op carry value with
    | error panic =>
      rw [pass_cons_error hop] at h
      cases k with
      | zero => cases h; exact ⟨rfl, rfl⟩
      | succ k => simp at h
    | ok next =>
      rw [pass_cons_ok hop] at h
      cases k with
      | zero => cases h; exact ⟨rfl, rfl⟩
      | succ k =>
        have hrest : (pass op next input).applied[k]? = some (left, right) := h
        obtain ⟨hleft, hright⟩ := pass_applied hrest
        refine ⟨?_, hright⟩
        rw [List.take_succ_cons, List.foldlM_cons, hop]
        exact hleft

/-- An entry is the left fold of the elements up to its own. -/
theorem pass_entry : ∀ {carry : α} {input : List α} {k : Nat} {entry : α},
    (pass op carry input).output[k]? = some entry →
    (input.take (k + 1)).foldlM op carry = .ok entry
  | carry, [], k, entry, h => by simp [pass] at h
  | carry, value :: input, k, entry, h => by
    cases hop : op carry value with
    | error panic => simp [pass_cons_error hop] at h
    | ok next =>
      rw [pass_cons_ok hop] at h
      rw [List.take_succ_cons, List.foldlM_cons, hop]
      cases k with
      | zero => cases h; rfl
      | succ k =>
        have hrest : (pass op next input).output[k]? = some entry := h
        exact pass_entry hrest

/-- If no application panics there is an entry, and an application, for each element. -/
theorem pass_of_returns : ∀ {carry : α} {input : List α},
    (∀ pair ∈ (pass op carry input).applied, ∃ value, op pair.1 pair.2 = .ok value) →
    (pass op carry input).result = .ok () ∧ (pass op carry input).output.length = input.length ∧
      (pass op carry input).applied.length = input.length
  | carry, [], _ => ⟨rfl, rfl, rfl⟩
  | carry, value :: input, h => by
    cases hop : op carry value with
    | error panic =>
      rw [pass_cons_error hop] at h
      obtain ⟨entry, hentry⟩ := h (carry, value) (List.mem_singleton_self _)
      rw [hop] at hentry
      cases hentry
    | ok next =>
      rw [pass_cons_ok hop] at h ⊢
      have hrest : ∀ pair ∈ (pass op next input).applied, ∃ value, op pair.1 pair.2 = .ok value :=
        fun pair hpair => h pair (List.mem_cons_of_mem _ hpair)
      obtain ⟨hresult, hentries, happlied⟩ := pass_of_returns hrest
      exact ⟨hresult, congrArg (· + 1) hentries, congrArg (· + 1) happlied⟩

/-- An application that panics is the last one, and there are the entries of those before it. -/
theorem pass_of_panic : ∀ {carry : α} {input : List α} {k : Nat} {left right : α} {panic : Panic},
    (pass op carry input).applied[k]? = some (left, right) → op left right = .error panic →
    (pass op carry input).result = .error panic ∧ (pass op carry input).output.length = k ∧
      (pass op carry input).applied.length = k + 1
  | carry, [], k, left, right, panic, h, _ => by simp [pass] at h
  | carry, value :: input, k, left, right, panic, h, hpanic => by
    cases hop : op carry value with
    | error other =>
      rw [pass_cons_error hop] at h ⊢
      cases k with
      | zero =>
        cases h
        rw [hop] at hpanic
        cases hpanic
        exact ⟨rfl, rfl, rfl⟩
      | succ k => simp at h
    | ok next =>
      rw [pass_cons_ok hop] at h ⊢
      cases k with
      | zero =>
        cases h
        rw [hop] at hpanic
        cases hpanic
      | succ k =>
        have hrest : (pass op next input).applied[k]? = some (left, right) := h
        obtain ⟨hresult, hentries, happlied⟩ := pass_of_panic hrest hpanic
        exact ⟨hresult, congrArg (· + 1) hentries, congrArg (· + 1) happlied⟩

/-- A list that begins with the first element and the entries computed is scanned so far. -/
theorem scannedTo_pass (op : α → α → Except Panic α) (first : α) (rest : List α)
    (entry : α) (before : List α) :
    ScannedTo op (first :: rest) (entry :: before)
      (first :: ((pass op first rest).output ++ before.drop (pass op first rest).output.length))
      ((pass op first rest).output.length + 1) where
  scanned i hi := by
    cases i with
    | zero => exact ⟨first, rfl, rfl⟩
    | succ i =>
      have hlt : i < (pass op first rest).output.length := Nat.lt_of_succ_lt_succ hi
      have hentry := List.getElem?_eq_getElem hlt
      refine ⟨_, ?_, congrArg some (pass_entry hentry)⟩
      rw [List.getElem?_cons_succ, List.getElem?_append_left hlt, hentry]
  rest := by
    rw [List.drop_succ_cons, List.drop_succ_cons, List.drop_left]

/-! ## Both scans -/

/-- **The two scans agree, also when the operator panics.**  Application `k` takes the left fold of
the elements `0..=k` and element `k + 1`.  If none panics both scan every entry, and the one into
another list leaves what is behind them; if the one for entry `k + 1` panics both stop with this
panic, and the entries from `k + 1` on are in both as they were before the call. -/
theorem into_agrees_with_inPlace (op : α → α → Except Panic α) {data output : List α}
    (hfits : data.length ≤ output.length) :
    (into op data output).applied = (inPlace op data).applied ∧
    (into op data output).result = (inPlace op data).result ∧
    (∀ k left right, (inPlace op data).applied[k]? = some (left, right) →
      combined op (data.take (k + 1)) = some (.ok left) ∧ data[k + 1]? = some right) ∧
    ((∀ pair ∈ (inPlace op data).applied, ∃ value, op pair.1 pair.2 = .ok value) →
      (inPlace op data).result = .ok () ∧
      (inPlace op data).applied.length = data.length - 1 ∧
      ScannedTo op data output (into op data output).output data.length ∧
      ScannedTo op data data (inPlace op data).output data.length) ∧
    ∀ k left right panic, (inPlace op data).applied[k]? = some (left, right) →
      op left right = .error panic →
      (inPlace op data).result = .error panic ∧
      (inPlace op data).applied.length = k + 1 ∧
      ScannedTo op data output (into op data output).output (k + 1) ∧
      ScannedTo op data data (inPlace op data).output (k + 1) := by
  rw [into, if_neg (Nat.not_lt.mpr hfits)]
  cases data with
  | nil =>
    have hscanned : ∀ before : List α, ScannedTo op [] before before 0 :=
      fun before => ⟨fun i hi => absurd hi (Nat.not_lt_zero i), rfl⟩
    have hinto : intoFrom op none [] output = ⟨.ok (), output, []⟩ := by cases output <;> rfl
    have hown : inPlace op ([] : List α) = ⟨.ok (), [], []⟩ := rfl
    rw [hinto, hown]
    exact ⟨rfl, rfl, fun k left right h => by simp at h,
      fun _ => ⟨rfl, rfl, hscanned output, hscanned []⟩,
      fun k left right panic h => by simp at h⟩
  | cons first rest =>
    cases output with
    | nil => simp at hfits
    | cons entry output =>
      have hle : rest.length ≤ output.length := Nat.le_of_succ_le_succ hfits
      have hinto : intoFrom op none (first :: rest) (entry :: output) =
          ⟨(pass op first rest).result,
            first :: ((pass op first rest).output ++
              output.drop (pass op first rest).output.length),
            (pass op first rest).applied⟩ := by
        rw [intoFrom, intoFrom_eq op first rest output hle]
      have hown : inPlace op (first :: rest) =
          ⟨(pass op first rest).result,
            first :: ((pass op first rest).output ++
              rest.drop (pass op first rest).output.length),
            (pass op first rest).applied⟩ := inPlaceFrom_eq op [] first rest
      have hother := scannedTo_pass op first rest entry output
      have hsame := scannedTo_pass op first rest first rest
      rw [hinto, hown]
      refine ⟨rfl, rfl, fun k left right h => ?_, fun h => ?_, fun k left right panic h hpanic => ?_⟩
      · obtain ⟨hleft, hright⟩ := pass_applied h
        exact ⟨congrArg some hleft, hright⟩
      · obtain ⟨hresult, hentries, happlied⟩ := pass_of_returns h
        rw [hentries] at hother hsame
        rw [hentries]
        exact ⟨hresult, happlied, hother, hsame⟩
      · obtain ⟨hresult, hentries, happlied⟩ := pass_of_panic h hpanic
        rw [hentries] at hother hsame
        rw [hentries]
        exact ⟨hresult, happlied, hother, hsame⟩

/-- A checked sum of four bytes that panics at the third one, into a list of five. -/
theorem into_agrees_with_inPlace_checked_sum :
    ([1, 2, 254, 7] : List UInt8).length ≤ ([9, 9, 9, 9, 9] : List UInt8).length ∧
    ScannedTo (NumberType.uint8.apply .checkedAdd) [1, 2, 254, 7] [9, 9, 9, 9, 9] [1, 3, 9, 9, 9] 2 ∧
    ScannedTo (NumberType.uint8.apply .checkedAdd) [1, 2, 254, 7] [1, 2, 254, 7] [1, 3, 254, 7] 2 :=
  have hfits : ([1, 2, 254, 7] : List UInt8).length ≤ ([9, 9, 9, 9, 9] : List UInt8).length := by decide
  ⟨hfits, ((into_agrees_with_inPlace (NumberType.uint8.apply .checkedAdd) hfits).2.2.2.2 1 3 254 _ rfl
    rfl).2.2⟩

end HostScan

end BlockMachine
