/-
# FlexLayout.Run -- layout as a run of collaborator calls

Flex layout lays out flex containers itself and hands every other box to a
collaborator.  A `Run` is a computation that makes such calls: it ends with a
value or a failure, and either way it leaves the log of the calls made, oldest
first.

`Run.outcome` is what a run amounts to, from a given log; each way of building a
run has its equation for it (`outcome_bind`, `outcome_record`, …).
-/
import FlexLayout.Failure
import FlexLayout.Fragment
import FlexLayout.Units

namespace FlexLayout

set_option autoImplicit false

/-- One collaborator call, with the box as it was on entry. -/
structure Call where
  kind : BoxKind
  /-- The width offered, for the kinds that are offered one. -/
  available : Option Int
  width : Option Int
  height : Option Int
  /-- Number of children. -/
  children : Nat
deriving DecidableEq, Repr, Inhabited

abbrev CallLog := Array Call

/-- A computation that makes collaborator calls and may fail with an `ε`. -/
abbrev Run (ε α : Type) := ExceptT ε (StateM CallLog) α

namespace Run

variable {ε δ α β : Type}

def outcome (run : Run ε α) (log : CallLog) : Except ε α × CallLog :=
  StateT.run (ExceptT.run run) log

/-- Log a call; the answer is its position in the log. -/
def record (call : Call) : Run ε Nat := do
  let log ← getThe CallLog
  set (log.push call)
  return log.size

/-- The same run, with failures seen as failures of another kind. -/
def mapFailure (f : ε → δ) (run : Run ε α) : Run δ α := ExceptT.adapt f run

@[simp] theorem outcome_pure (a : α) (log : CallLog) :
    outcome (pure a : Run ε α) log = (.ok a, log) := rfl

@[simp] theorem outcome_throw (e : ε) (log : CallLog) :
    outcome (throw e : Run ε α) log = (.error e, log) := rfl

@[simp] theorem outcome_record (call : Call) (log : CallLog) :
    outcome (record call : Run ε Nat) log = (.ok log.size, log.push call) := rfl

theorem outcome_bind (run : Run ε α) (next : α → Run ε β) (log : CallLog) :
    outcome (run >>= next) log =
      match outcome run log with
      | (.ok a, after) => outcome (next a) after
      | (.error e, after) => (.error e, after) := by
  simp only [outcome, ExceptT.run_bind, StateT.run_bind]
  rcases StateT.run run.run log with ⟨result, after⟩
  cases result <;> rfl

theorem outcome_bind_ok {run : Run ε α} {log after : CallLog} {a : α}
    (h : outcome run log = (.ok a, after)) (next : α → Run ε β) :
    outcome (run >>= next) log = outcome (next a) after := by
  rw [outcome_bind, h]

theorem outcome_bind_error {run : Run ε α} {log after : CallLog} {e : ε}
    (h : outcome run log = (.error e, after)) (next : α → Run ε β) :
    outcome (run >>= next) log = (.error e, after) := by
  rw [outcome_bind, h]

theorem outcome_mapFailure (f : ε → δ) (run : Run ε α) (log : CallLog) :
    outcome (mapFailure f run) log =
      ((outcome run log).1.mapError f, (outcome run log).2) := rfl

theorem ext {run other : Run ε α} (h : ∀ log, outcome run log = outcome other log) :
    run = other :=
  funext h

end Run

/-- A child as its container sees it: the box, its geometry so far, and a routine
that lays it out at a given available width. -/
structure Kid where
  box : Box
  fragment : Fragment
  layOut : Fragment → Int → Run Failure Fragment

namespace Kid

def frame (kid : Kid) : Frame := kid.fragment.frame

/-- Replace the geometry of the child and its descendants. -/
def withFragment (kid : Kid) (fragment : Fragment) : Kid := { kid with fragment := fragment }

def withFrame (kid : Kid) (frame : Frame) : Kid :=
  kid.withFragment { kid.fragment with frame := frame }

@[simp] theorem frame_withFragment (kid : Kid) (fragment : Fragment) :
    (kid.withFragment fragment).frame = fragment.frame := rfl

@[simp] theorem frame_withFrame (kid : Kid) (frame : Frame) :
    (kid.withFrame frame).frame = frame := rfl

end Kid

/-- What layout needs from outside: pixels for lengths, and a layout routine for
boxes that are no flex containers.  The routine gets the box's kind, the width it
is offered, its own geometry and its children; a size that is already known on
entry has been imposed and is kept. -/
structure Environment where
  resolve : Resolver
  layOutContents : BoxKind → Option Int → Frame → List Kid → Run Cause Fragment

end FlexLayout
