/-!
# Scheduling of independent blocks

The blocks of a launch are independent, so any order will do.  `Scheduling.order` is the order in
which a run starts them, one at a time; for `parallel`, where every order may occur, it is the one by
block number.
-/

set_option autoImplicit false

namespace BlockMachine

/-- How the blocks of one launch are put on the host. -/
inductive Scheduling where
  | parallel
  | sequential
  | reversed
  deriving DecidableEq, Repr

namespace Scheduling

/-- All policies, in the order in which they are listed to a reader. -/
def all : List Scheduling := [parallel, sequential, reversed]

/-- The name of a policy in a configuration document. -/
def name : Scheduling → String
  | parallel => "parallel"
  | sequential => "sequential"
  | reversed => "reversed"

/-- The name of a policy in a log line. -/
def title : Scheduling → String
  | parallel => "Parallel"
  | sequential => "Sequential"
  | reversed => "Reversed"

/-- The policy of a given name. -/
def ofName? (text : String) : Option Scheduling :=
  all.find? fun policy => policy.name == text

/-- The numbers of the blocks in the order in which a run starts them. -/
def order : Scheduling → Nat → List Nat
  | parallel, blocks => List.range blocks
  | sequential, blocks => List.range blocks
  | reversed, blocks => (List.range blocks).reverse

end Scheduling

end BlockMachine
