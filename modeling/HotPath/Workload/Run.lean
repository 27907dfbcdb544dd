import HotPath.Machine.Host
import HotPath.Tier.Schedule
import HotPath.Workload.Report

/-!
# Running a workload

A `Plan` says which workload to run, how often and how large, and whether the optimizer
takes part. `Plan.run` builds the program, runs it on a fresh machine and reports. The pace
of the optimizer's workers is a parameter, and so is the number of instructions after which
the run is broken off.
-/

namespace HotPath

/-- What to run. -/
structure Plan where
  workload : Workload
  calls : UInt32
  iterations : UInt32
  /-- Whether the optimizer takes part. -/
  optimize : Bool := true
  settings : Settings := {}
deriving DecidableEq, Repr

/-- A finished run. -/
structure Run where
  program : Program
  report : Report
  /-- The versions that were published, in the order of the program's functions. -/
  published : List Function

namespace Plan

/-- The plan with the sizes that a workload has when none are given. -/
def standard (workload : Workload) : Plan where
  workload
  calls := workload.defaultCalls
  iterations := workload.defaultIterations

def program (plan : Plan) : Program := plan.workload.program plan.calls plan.iterations

/-- Where each function of a program stands with its optimizer. -/
def functionReports (o : Optimizer) : List FunctionReport :=
  o.program.functions.toList.map fun f =>
    { name := f.name
      calls := o.callCount f.name
      state := o.stateOf f.name
      instructions := f.instructionCount
      optimizedInstructions := (o.named? f.name).map Function.instructionCount }

/-- Run the program on a fresh machine, beside an optimizer that watches if it takes part. -/
def execute (plan : Plan) (pace : Pace) (fuel : Nat) : Status Watch (Option HostValue) :=
  let program := plan.program
  let profiler := if plan.optimize then Optimizer.profiler pace else Profiler.none
  Machine.callEntry program profiler fuel []
    ⟨Optimizer.create program plan.settings, 0⟩ (Machine.create {})

/-- Run the program and report, after the workers have done all jobs. The report leaves the time
at zero. -/
def run (plan : Plan) (pace : Pace := .prompt) (fuel : Nat := Machine.unbounded) : Run :=
  let ended := plan.execute pace fuel
  let machine := ended.machine
  let optimizer := ended.profile.optimizer.settle
  let result := match ended with
    | .faulted fault .. => fault.code
    | _ => .success
  let output := machine.output.toList
  let expected := toString (plan.workload.expectedTotal plan.calls plan.iterations).toInt
  { program := optimizer.program
    published :=
      if plan.optimize then
        optimizer.program.functions.toList.filterMap fun f => optimizer.named? f.name
      else []
    report :=
      { workload := plan.workload
        calls := plan.calls
        iterations := plan.iterations
        optimize := plan.optimize
        result
        output
        verified := result.isSuccess && output.getLast? = some expected
        instructionsExecuted := machine.counts.instructions
        liveArrays := machine.heap.counts.live
        elapsed := Double.zero
        tally := if plan.optimize then optimizer.tally else {}
        functions := if plan.optimize then functionReports optimizer else [] } }

end Plan

end HotPath
