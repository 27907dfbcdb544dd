import HotPath.CommandLine.Program

/-!
# The executable

Reads the arguments, times the run, and writes what the command comes to.
-/

open HotPath

/-- Run a plan and put the time it took into its report. -/
def timed (plan : Plan) : IO Run := do
  let before ← IO.monoNanosNow
  let run ← IO.lazyPure fun _ => plan.run
  let after ← IO.monoNanosNow
  let elapsed := Double.ofFloat ((after - before).toFloat / 1000000.0)
  return { run with report := { run.report with elapsed } }

def main (arguments : List String) : IO UInt32 := do
  let response ←
    match CommandLine.parse arguments with
    | .error error => pure (CommandLine.explain error)
    | .ok options =>
      match CommandLine.check options with
      | .error error => pure (CommandLine.refuse error)
      | .ok _ => CommandLine.present options <$> timed options.plan
  IO.print response.stdout
  IO.eprint response.stderr
  return response.exit.toUInt32
