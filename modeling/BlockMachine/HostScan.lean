import BlockMachine.Panic

/-!
# Scans on the host

Entry `k` of an inclusive scan combines the elements up to number `k`, from the left.

* `HostScan.into` — into the first entries of another list, which must be long enough.
* `HostScan.inPlace` — over the elements themselves.

Both stop when the operator panics.  `ScanRun` tells what the list holds then, and to which arguments
the operator was applied.
-/

set_option autoImplicit false

namespace BlockMachine

/-- What a scan did. -/
structure ScanRun (α : Type) where
  /-- The panic that stopped the scan, if one did. -/
  result : Except Panic Unit
  /-- The list that was written, as it was left. -/
  output : List α
  /-- The arguments of each application of the operator, in order. -/
  applied : List (α × α)

namespace HostScan

variable {α : Type}

/-- Scans the rest of the input into the rest of the output; `carry` is the entry written last. -/
def intoFrom (op : α → α → Except Panic α) : Option α → List α → List α → ScanRun α
  | none, value :: input, _ :: output =>
    let run := intoFrom op (some value) input output
    ⟨run.result, value :: run.output, run.applied⟩
  | some carry, value :: input, entry :: output =>
    match op carry value with
    | .error panic => ⟨.error panic, entry :: output, [(carry, value)]⟩
    | .ok next =>
      let run := intoFrom op (some next) input output
      ⟨run.result, next :: run.output, (carry, value) :: run.applied⟩
  | _, _, output => ⟨.ok (), output, []⟩

/-- Scans a list into the first entries of another one. -/
def into (op : α → α → Except Panic α) (input output : List α) : ScanRun α :=
  if output.length < input.length then
    ⟨.error (.scanOutputTooShort output.length input.length), output, []⟩
  else intoFrom op none input output

/-- The remaining turns of a scan in place: entry `index` is combined with the one before it, both
read from the list as it is by then. -/
def inPlaceFrom (op : α → α → Except Panic α) : (turns index : Nat) → Array α → ScanRun α
  | 0, _, data => ⟨.ok (), data.toList, []⟩
  | turns + 1, index, data =>
    match data[index - 1]?, data[index]? with
    | some left, some right =>
      match op left right with
      | .error panic => ⟨.error panic, data.toList, [(left, right)]⟩
      | .ok value =>
        let run := inPlaceFrom op turns (index + 1) (data.setIfInBounds index value)
        ⟨run.result, run.output, (left, right) :: run.applied⟩
    | _, _ => ⟨.ok (), data.toList, []⟩

/-- Scans a list in place. -/
def inPlace (op : α → α → Except Panic α) (data : List α) : ScanRun α :=
  inPlaceFrom op (data.length - 1) 1 data.toArray

end HostScan

end BlockMachine
