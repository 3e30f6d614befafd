import BlockMachine.Compaction.Masked
import BlockMachine.Memory.Scalar
import BlockMachine.Operator

/-!
# Sessions

A session holds a configuration and named buffers of integers, and runs the operations of the library
on them one after the other.  An operation reads copies of its inputs and writes into a buffer, which
shows afterwards what the operation left there.

* `Session.Step` — the steps.
* `Session.Report` — the answer of a step.
* `Session.perform` — the answer of one step, and the session after it.
-/

set_option autoImplicit false

namespace BlockMachine

/-- A configuration and named buffers, with all that the steps so far have logged. -/
structure Session where
  config : LaunchConfig
  buffers : List (String × Array Int64)
  journal : Journal := {}

namespace Session

/-- The steps of a session. -/
inductive Step where
  | configure (config : LaunchConfig)
  | keep (input stencil output : String) (predicate : Predicate)
  | remove (input stencil output : String) (predicate : Predicate)
  | unstenciled (input output : String) (predicate : Predicate)
  | mask (input : String) (mask : Mask) (output : String)
  | scan (input output : String) (op : Operator)
  | reduce (input output : String) (op : Operator) (intervals : Nat)
  /-- Replaces the output by the selected elements alone. -/
  | compact (input : String) (mask : Mask) (output : String)
  | truncate (output : String) (length : Nat)

/-- The answer of a step that did its work. -/
inductive Report where
  | selected (count : Nat)
  | written (count : Nat)
  | ok
  /-- Nothing to tell. -/
  | quiet
  deriving DecidableEq, Repr

/-- The buffer of a name; an unknown one is empty. -/
def buffer (session : Session) (name : String) : Array Int64 :=
  (session.buffers.lookup name).getD #[]

/-- The buffers with another content of one of them, which may be new. -/
def replaceBuffer (name : String) (values : Array Int64) :
    List (String × Array Int64) → List (String × Array Int64)
  | [] => [(name, values)]
  | entry :: rest =>
    if entry.1 = name then (name, values) :: rest else entry :: replaceBuffer name values rest

/-- The session with another content of a buffer. -/
def setBuffer (session : Session) (name : String) (values : Array Int64) : Session :=
  { session with buffers := replaceBuffer name values session.buffers }

/-- The session with what a step has logged. -/
def logged (session : Session) (journal : Journal) : Session :=
  { session with
    journal := { session.journal with records := session.journal.records ++ journal.records } }

/-- The buffer that a step writes to. -/
def Step.output? : Step → Option String
  | configure _ => none
  | keep _ _ output _ | remove _ _ output _ | unstenciled _ output _ | mask _ _ output
  | scan _ output _ | reduce _ output _ _ | compact _ _ output | truncate output _ => some output

/-- The input of a step, at the start of memory. -/
def source (session : Session) (name : String) : Placed Int64 := ⟨session.buffer name, 0⟩

/-- The store of a step that looks at the elements of one buffer and writes to another one. -/
def store (session : Session) (stencil output : String) : Store Int64 :=
  ⟨session.buffer output, .start (session.buffer stencil).size⟩

/-- The session after a step that wrote to a buffer. -/
def finish {ρ : Type} (session : Session) (output : String) (report : ρ → Report)
    (run : Except Failure ρ × Store Int64) : Except Failure Report × Session :=
  (report <$> run.1, (session.setBuffer output run.2.output).logged run.2.journal)

/-- The answer of one step, and the session after it. -/
def perform (session : Session) : Step → Except Failure Report × Session
  | .configure config =>
    ((fun _ => Report.ok) <$> Failure.ofProblem config.validate, { session with config := config })
  | .keep input stencil output predicate =>
    session.finish output .selected <| Compaction.copyIf session.config Element.int64
      (session.source input) (session.buffer stencil) (predicate.selector Int64.toInt) 0
      (session.store stencil output)
  | .remove input stencil output predicate =>
    session.finish output .selected <| Compaction.removeCopyIf session.config Element.int64
      (session.source input) (session.buffer stencil) (predicate.selector Int64.toInt) 0
      (session.store stencil output)
  | .unstenciled input output predicate =>
    session.finish output .selected <| Compaction.copyIfUnstenciled session.config Element.int64
      (session.source input) (predicate.selector Int64.toInt) 0 (session.store input output)
  | .mask input mask output =>
    session.finish output .selected <| Compaction.copyIfMask session.config Element.int64
      (session.source input) mask 0 (session.store input output)
  | .scan input output op =>
    let values := session.buffer input
    let run := HostScan.into (NumberType.int64.apply op) values.toList
      (session.buffer output).toList
    ((fun _ => Report.written values.size) <$> Failure.ofPanic run.result,
      session.setBuffer output run.output.toArray)
  | .reduce input output op intervals =>
    let view := View.ofArray (session.buffer input)
    session.finish output (fun _ => .ok) <| Reduction.reduce session.config 0
      (NumberType.int64.apply op) view (.even view.length intervals) (session.store input output)
  | .compact input mask output =>
    let run := Compaction.compactValid session.config Element.int64 0 (session.source input) mask
      (.start 0)
    let session := session.logged run.2
    match run.1 with
    | .error failure => (.error failure, session)
    | .ok values => (.ok (.selected values.size), session.setBuffer output values)
  | .truncate output length =>
    (.ok .quiet, session.setBuffer output ((session.buffer output).extract 0 length))

end Session

end BlockMachine
