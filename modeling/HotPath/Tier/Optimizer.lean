import HotPath.Fusion.Pass
import HotPath.Machine.Step
import HotPath.Tier.Gate
import HotPath.Tier.Settings
import HotPath.Tier.Tally

/-!
# The optimizer

The optimizer counts calls by the name of the function. When a name gets hot, one
job is taken on for it and joins a queue. A worker takes a job from the queue,
passes the gate, fuses the function, and publishes the result or notes that
there is none. From then on the name is settled: its calls are no longer
counted and no further job is taken on. A job that does not get through the gate
is cancelled; its name is free again, and the next counted call takes on a new
job.

`recordCall`, `process`, `enable`, `disable` and `shutdown` are the atomic steps. They may
come in any order, and `process` may take any job of the queue.
-/

namespace HotPath

/-- A function to be optimized, by its name and its index. -/
structure Job where
  name : String
  index : Nat
deriving DecidableEq, Repr, Inhabited

/-- A version of a function that is on offer. -/
structure Publication where
  job : Job
  version : Fusion
deriving DecidableEq, Repr

/-- Numbers of calls by name. -/
structure CallCounts where
  entries : List (String × Nat) := []
deriving DecidableEq, Repr, Inhabited

namespace CallCounts

/-- The number of calls counted for a name. -/
def get (c : CallCounts) (name : String) : Nat := (c.entries.lookup name).getD 0

/-- Count one more call for a name. -/
def bump (c : CallCounts) (name : String) : CallCounts :=
  ⟨(name, c.get name + 1) :: c.entries.filter fun entry => entry.1 ≠ name⟩

end CallCounts

/-- The optimizer of one program. -/
structure Optimizer where
  program : Program
  settings : Settings
  /-- Whether calls are counted. -/
  enabled : Bool
  hasShutDown : Bool
  calls : CallCounts
  /-- The names for which a job has been taken on and has not ended. -/
  inFlight : List Job
  /-- The names for which there is nothing to publish. -/
  failed : List String
  /-- The published versions, the latest last. -/
  published : List Publication
  gate : Gate
  tally : Tally
  /-- The number of jobs that have been taken on and have not ended. -/
  pending : Nat
  /-- The jobs that no worker has taken yet. -/
  queue : List Job
deriving DecidableEq, Repr

namespace Optimizer

/-- An optimizer that has not counted anything. -/
def create (program : Program) (settings : Settings) : Optimizer where
  program
  settings
  enabled := settings.enabled
  hasShutDown := false
  calls := {}
  inFlight := []
  failed := []
  published := []
  gate := .make settings.jobs
  tally := {}
  pending := 0
  queue := []

/-- The number of workers. -/
def workerCount (o : Optimizer) : Nat := max o.settings.workers 1

/-- Whether a call would be counted now. -/
def isEnabled (o : Optimizer) : Bool := o.enabled && !o.hasShutDown

/-- Whether no job is waiting or being worked on. -/
def isIdle (o : Optimizer) : Bool := o.pending = 0

/-- The number of calls counted for a name. -/
def callCount (o : Optimizer) (name : String) : Nat := o.calls.get name

/-- The published version for a name. -/
def named? (o : Optimizer) (name : String) : Option Function :=
  (o.published.find? fun p => p.job.name = name).map fun p => p.version.function

/-- The published version for an index; of several it is the first that was published. -/
def indexed? (o : Optimizer) (index : Nat) : Option Function :=
  (o.published.find? fun p => p.job.index = index).map fun p => p.version.function

def isInFlight (o : Optimizer) (name : String) : Bool := o.inFlight.any fun job => job.name = name

def hasFailed (o : Optimizer) (name : String) : Bool := o.failed.contains name

/-- Whether nothing is left to be done for a name. -/
def isSettled (o : Optimizer) (name : String) : Bool := (o.named? name).isSome || o.hasFailed name

/-- Where a name stands. -/
def stateOf (o : Optimizer) (name : String) : FunctionState :=
  if (o.named? name).isSome then .optimized
  else if o.isInFlight name then .inFlight
  else if o.hasFailed name then .failed
  else .cold

/-- Free a name for new jobs. -/
def unmark (o : Optimizer) (name : String) : Optimizer :=
  { o with inFlight := o.inFlight.filter fun job => job.name ≠ name }

/-- Give a job up. -/
def cancel (o : Optimizer) (job : Job) : Optimizer :=
  let o := { o with tally := { o.tally with cancelled := o.tally.cancelled + 1 } }
  o.unmark job.name

/-- Note that there is nothing to publish for a job. -/
def fail (o : Optimizer) (job : Job) : Optimizer :=
  let o := { o with
    failed := if o.hasFailed job.name then o.failed else job.name :: o.failed
    tally := { o.tally with failed := o.tally.failed + 1 } }
  o.unmark job.name

/-- Offer a version. A name that has one already keeps it. -/
def publish (o : Optimizer) (job : Job) (version : Fusion) : Optimizer :=
  if (o.named? job.name).isSome then o.unmark job.name
  else
    let o := { o with
      published := o.published ++ [Publication.mk job version]
      tally := { o.tally with
        completed := o.tally.completed + 1
        fusions := o.tally.fusions + version.count } }
    o.unmark job.name

/-- Fuse the function that a job is about and publish what comes of it. The code is always that
of the function at the job's index. -/
def attempt (o : Optimizer) (job : Job) : Optimizer :=
  match o.program.functions[job.index]? with
  | none => o.fail job
  | some f =>
    match f.fuse o.program with
    | .ok version => if version.changed then o.publish job version else o.fail job
    | .error _ => o.fail job

/-- Work on a job: pass the gate, do it, and hand the permit back. Without a permit, and after
shutdown, the job is cancelled. -/
def work (o : Optimizer) (job : Job) : Optimizer :=
  if o.hasShutDown then o.cancel job
  else
    match o.gate.acquire? with
    | none => o.cancel job
    | some gate =>
      let o := { o with gate }.attempt job
      { o with gate := o.gate.release }

/-- A job has ended. -/
def finishJob (o : Optimizer) : Optimizer := { o with pending := o.pending - 1 }

/-- Take a job on. After shutdown nobody is left to work on it. -/
def submit (o : Optimizer) (job : Job) : Optimizer :=
  let o := { o with
    inFlight := job :: o.inFlight
    tally := { o.tally with admitted := o.tally.admitted + 1 }
    pending := o.pending + 1 }
  if o.hasShutDown then (o.cancel job).finishJob
  else { o with queue := o.queue ++ [job] }

/-- Count a call, and take a job on if it makes the name hot. -/
def recordCall (o : Optimizer) (index : Nat) (name : String) : Optimizer :=
  if !o.enabled || o.isSettled name then o
  else
    let o := { o with calls := o.calls.bump name }
    if o.callCount name < o.settings.threshold || o.isInFlight name then o
    else o.submit ⟨name, index⟩

/-- A worker takes the job at a position of the queue and works on it. -/
def process (o : Optimizer) (position : Nat) : Optimizer :=
  match o.queue[position]? with
  | some job => ({ o with queue := o.queue.eraseIdx position }.work job).finishJob
  | none => o

/-- Count calls again. Nothing is counted after shutdown. -/
def enable (o : Optimizer) : Optimizer :=
  if o.hasShutDown then o else { o with enabled := true }

/-- Stop counting calls. Jobs go on, and published versions stay on offer. -/
def disable (o : Optimizer) : Optimizer := { o with enabled := false }

/-- Stop for good. The jobs that are left in the queue will be cancelled. -/
def shutdown (o : Optimizer) : Optimizer :=
  if o.hasShutDown then o
  else { o with hasShutDown := true, enabled := false, gate := o.gate.close }

end Optimizer

end HotPath
