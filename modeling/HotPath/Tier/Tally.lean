import HotPath.Text.Json

/-!
# Counting jobs

A `Tally` counts the jobs of the optimizer by how they ended. `FunctionState` says where
a function stands.
-/

namespace HotPath

/-- How the jobs of an optimizer ended. -/
structure Tally where
  /-- Jobs that were taken on. -/
  admitted : Nat := 0
  /-- Jobs that published a version. -/
  completed : Nat := 0
  /-- Jobs that found nothing to publish. -/
  failed : Nat := 0
  /-- Jobs that were given up at the gate or at shutdown. -/
  cancelled : Nat := 0
  /-- The spans fused in all published versions. -/
  fusions : Nat := 0
deriving DecidableEq, Repr, Inhabited

namespace Tally

/-- The jobs that have ended. -/
def finished (t : Tally) : Nat := t.completed + t.failed + t.cancelled

def text (t : Tally) : String :=
  "admitted=" ++ toString t.admitted ++ " completed=" ++ toString t.completed ++
    " failed=" ++ toString t.failed ++ " cancelled=" ++ toString t.cancelled ++
    " rewrites=" ++ toString t.fusions

def document (t : Tally) : Text.Json :=
  .record [
    ("admitted", .integer t.admitted),
    ("completed", .integer t.completed),
    ("failed", .integer t.failed),
    ("cancelled", .integer t.cancelled),
    ("total_rewrites", .integer t.fusions)]

end Tally

/-- Where a function stands with the optimizer. -/
inductive FunctionState where
  /-- It runs as it was compiled, and no job is about it. -/
  | cold
  /-- A job about it has been taken on and has not ended. -/
  | inFlight
  /-- A version of it has been published. -/
  | optimized
  /-- There is nothing to publish; it is not tried again. -/
  | failed
deriving DecidableEq, Repr, Inhabited

namespace FunctionState

/-- Every state. -/
def all : List FunctionState := [cold, inFlight, optimized, failed]

def text : FunctionState → String
  | cold => "cold"
  | inFlight => "in-flight"
  | optimized => "optimized"
  | failed => "failed"

/-- The name of a state in a document. -/
def documentName : FunctionState → String
  | inFlight => "in_flight"
  | state => state.text

end FunctionState

end HotPath
