import HotPath.Tier.Tally
import HotPath.Value.Fault
import HotPath.Workload.Basic

/-!
# Reports

What a run of a workload comes to, as text and as a document. The text starts
with what the program printed; the table of functions is shown only when the
optimizer took part.
-/

namespace HotPath

/-- Where a function stood at the end of a run. -/
structure FunctionReport where
  name : String
  /-- The calls counted before the function was settled. -/
  calls : Nat
  state : FunctionState
  /-- The length of its own code. -/
  instructions : Nat
  /-- The length of the published version, if there is one. -/
  optimizedInstructions : Option Nat
deriving DecidableEq, Repr

/-- What a run of a workload comes to. -/
structure Report where
  workload : Workload
  calls : UInt32
  iterations : UInt32
  /-- Whether the optimizer took part. -/
  optimize : Bool
  result : ResultCode
  /-- The lines that the program printed. -/
  output : List String
  /-- Whether the program printed the expected total. -/
  verified : Bool
  instructionsExecuted : Nat
  /-- The arrays that were still alive at the end. -/
  liveArrays : Nat
  /-- The time taken, in milliseconds. -/
  elapsed : Double
  tally : Tally
  functions : List FunctionReport
deriving DecidableEq, Repr

namespace FunctionReport

/-- The line of a function in the table. -/
def line (f : FunctionReport) : String :=
  let start := "  " ++ Text.padEnd 10 f.name ++ " calls=" ++ Text.padEnd 8 (toString f.calls) ++
    " " ++ f.state.text
  match f.optimizedInstructions with
  | some after =>
    start ++ " (" ++ toString f.instructions ++ " -> " ++ toString after ++ " instructions)"
  | none => start

def document (f : FunctionReport) : Text.Json :=
  .record [
    ("name", .string f.name),
    ("calls", .integer f.calls),
    ("state", .string f.state.documentName),
    ("instructions", .integer f.instructions),
    ("optimized_instructions", match f.optimizedInstructions with
      | some count => .integer count
      | none => .null)]

end FunctionReport

namespace Report

/-- The report as text. -/
def text (r : Report) : String :=
  let table :=
    if r.optimize then
      ("optimizer: " ++ r.tally.text) :: r.functions.map FunctionReport.line
    else ["optimizer: disabled"]
  Text.unlines <|
    r.output ++
    [ "workload: " ++ r.workload.text ++ " (calls=" ++ toString r.calls.toNat ++
        ", iterations=" ++ toString r.iterations.toNat ++ ")",
      "result: " ++ r.result.text,
      "verified: " ++ toString r.verified,
      "executed: " ++ toString r.instructionsExecuted ++ " instructions in " ++
        r.elapsed.fixed 2 ++ " ms",
      "live arrays: " ++ toString r.liveArrays ] ++
    table

/-- The report as a document. -/
def document (r : Report) : Text.Json :=
  .record [
    ("workload", .string r.workload.text),
    ("calls", .integer r.calls.toNat),
    ("iterations", .integer r.iterations.toNat),
    ("optimize", .bool r.optimize),
    ("result", .string r.result.text),
    ("output", .list (r.output.map .string)),
    ("verified", .bool r.verified),
    ("instructions_executed", .integer r.instructionsExecuted),
    ("live_arrays", .integer r.liveArrays),
    ("elapsed_ms", .float r.elapsed),
    ("optimizer", r.tally.document),
    ("functions", .list (r.functions.map FunctionReport.document))]

end Report

end HotPath
