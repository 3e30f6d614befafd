import BlockMachine.Config
import BlockMachine.Text.Plain

/-!
# Journal of a run

What a run leaves behind besides its results: the lines that it logged, how often each element of a
view was asked for, and how many clones were made.

* `CopyPath` — the three ways of a block copy.
* `Record` — what can be logged; `Record.line` is its wording.
* `Journal` — the record of a run.
-/

set_option autoImplicit false

namespace BlockMachine

/-- The ways in which a block copy moves its elements. -/
inductive CopyPath where
  /-- Bytes in words of eight, and the rest one by one. -/
  | wide
  /-- Bytes one by one. -/
  | bytewise
  /-- Clones, element by element. -/
  | elementwise
  deriving DecidableEq, Repr

/-- The name of a path. -/
def CopyPath.title : CopyPath → String
  | wide => "Wide"
  | bytewise => "Bytewise"
  | elementwise => "Elementwise"

/-- One copy of consecutive elements by the lanes of a block. -/
structure BulkCopy where
  block : Nat
  count : Nat
  path : CopyPath
  /-- The address of the first element that is read. -/
  source : Nat
  /-- The address of the first element that is written. -/
  target : Nat
  deriving DecidableEq, Repr

/-- What a run can log. -/
inductive Record where
  | launch (blocks threads : Nat) (scheduling : Scheduling) (capability : Capability)
  | blockFaulted (block : Nat) (message : String)
  | reduction (total intervals : Nat)
  | compaction (selected total blocks : Nat)
  | metric (pairs : List (String × String))
  | overLimit (bytes limit : Nat)
  | bulkCopy (copy : BulkCopy)
  deriving DecidableEq, Repr

namespace Record

/-- The pairs of a metric in one line; nothing in them is escaped. -/
def metricText (pairs : List (String × String)) : String :=
  let parts := pairs.map fun pair => "\"" ++ pair.1 ++ "\": \"" ++ pair.2 ++ "\""
  "WARPACK_METRIC: \x7b " ++ ", ".intercalate parts ++ " \x7d"

/-- The level of a record. -/
def level : Record → String
  | overLimit .. => "WARN"
  | bulkCopy .. => "TRACE"
  | _ => "DEBUG"

/-- The wording of a record. -/
def message : Record → String
  | launch blocks threads scheduling capability =>
    s!"launch: {blocks} blocks x {threads} threads ({scheduling.title}, capability " ++
      s!"{capability.toString})"
  | blockFaulted block message => s!"launch: block {block} faulted: {message}"
  | reduction total intervals => s!"reduce_intervals: {total} values over {intervals} intervals"
  | compaction selected total blocks =>
    s!"copy_if: selected {selected} of {total} elements across {blocks} blocks"
  | metric pairs => metricText pairs
  | overLimit bytes limit =>
    s!"temporary allocation of {bytes} bytes exceeds the configured limit of {limit} bytes"
  | bulkCopy copy =>
    s!"block {copy.block}: block_copy of {copy.count} elements via {copy.path.title}"

/-- A record as a line of the log: its level in brackets, then its wording. -/
def line (record : Record) : String :=
  s!"[{record.level}] {record.message}"

end Record

/-- What a run leaves behind besides its results. -/
structure Journal where
  /-- How often the view was asked for each of its elements. -/
  calls : Array Nat := #[]
  /-- How many clones were begun. -/
  clones : Nat := 0
  /-- What was logged, oldest first. -/
  records : Array Record := #[]
  deriving DecidableEq, Repr

namespace Journal

/-- The journal before a run over a view of a number of elements. -/
def start (elements : Nat) : Journal := { calls := Array.replicate elements 0 }

/-- How often an element has been asked for so far. -/
def callsOf (journal : Journal) (index : Nat) : Nat := journal.calls[index]?.getD 0

/-- One more question for an element. -/
def countCall (journal : Journal) (index : Nat) : Journal :=
  { journal with calls := journal.calls.modify index (· + 1) }

/-- One more clone. -/
def countClone (journal : Journal) : Journal :=
  { journal with clones := journal.clones + 1 }

/-- One more logged record. -/
def note (journal : Journal) (record : Record) : Journal :=
  { journal with records := journal.records.push record }

/-- The text of the log: each record as a plain text with a line break behind it. -/
def text (journal : Journal) : List Char :=
  journal.records.toList.flatMap fun record => Text.plain (record.line.toList ++ ['\n'])

/-- The lines of the log.  A record whose wording has line breaks takes several. -/
def lines (journal : Journal) : List String := Text.lines journal.text

/-- The lines of the log of a run whose blocks have no order of their own: sorted by their characters,
which is also their order by bytes. -/
def sortedLines (journal : Journal) : List String :=
  journal.lines.mergeSort fun a b => (compare a b).isLE

/-- Equal neighbours of a list taken together, each with the number of its repetitions. -/
def runLengths (counts : List Nat) : List (Nat × Nat) :=
  (counts.splitBy (· == ·)).filterMap fun run => run.head?.map fun count => (count, run.length)

end Journal

end BlockMachine
