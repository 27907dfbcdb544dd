import HotPath.Tier.Optimizer

/-!
# Schedules

When the workers get to their jobs is not up to the optimizer. Once they do, they take
all jobs that need not wait, in order (`settle`). A job has to wait when the gate is
open without a free slot, unless it may not wait at all.

`Optimizer.profiler` attaches an optimizer to a machine. A `Pace` decides at which calls the
workers get to their jobs; `Pace.prompt` lets them do so at every call. `Supervised` is
an optimizer with prompt workers beside a host that may hold permits of the gate
itself.
-/

namespace HotPath

namespace Optimizer

/-- Whether a worker that takes a job comes to an end with it now. -/
def isPrompt (o : Optimizer) : Bool :=
  o.hasShutDown || o.gate.closed || 0 < o.gate.available || o.settings.admissionTimeout = 0

/-- Work on as many jobs from the front of the queue as there is fuel for. -/
def processFirst : (fuel : Nat) → Optimizer → Optimizer
  | 0, o => o
  | fuel + 1, o => processFirst fuel (o.process 0)

/-- Work on all jobs of the queue that need not wait. -/
def settle (o : Optimizer) : Optimizer :=
  if o.isPrompt then processFirst o.queue.length o else o

end Optimizer

/-- Whether the workers get to their jobs between the report of a call and its execution; the
calls are numbered from zero. -/
abbrev Pace := Nat → Bool

/-- The workers get to their jobs at every call. -/
def Pace.prompt : Pace := fun _ => true

/-- An optimizer that watches a machine. -/
structure Watch where
  optimizer : Optimizer
  /-- The number of calls that have been reported. -/
  reported : Nat := 0

/-- An optimizer as the profiler of a machine. With prompt workers, a job that a call gives rise
to is done before the function is entered. -/
def Optimizer.profiler (pace : Pace) : Profiler Watch where
  recordCall index f w :=
    let o := w.optimizer.recordCall index f.name
    ⟨if pace w.reported then o.settle else o, w.reported + 1⟩
  replacement? index w := w.optimizer.indexed? index

/-- An optimizer beside a host that holds some permits of its gate. -/
structure Supervised where
  optimizer : Optimizer
  held : Nat := 0

namespace Supervised

/-- Change the optimizer, and let the workers go on. -/
def change (s : Supervised) (step : Optimizer → Optimizer) : Supervised :=
  { s with optimizer := (step s.optimizer).settle }

/-- The gate with the permits that the host holds. -/
def turnstile (s : Supervised) : Turnstile := ⟨s.optimizer.gate, s.held⟩

/-- Put a gate and its permits back, and let the workers go on. -/
def withTurnstile (s : Supervised) (t : Turnstile) : Supervised :=
  ⟨{ s.optimizer with gate := t.gate }.settle, t.held⟩

/-- Report calls of one function, letting the workers go on after each. -/
def recordCalls (s : Supervised) (index : Nat) (name : String) : (times : Nat) → Supervised
  | 0 => s
  | times + 1 => (s.change fun o => o.recordCall index name).recordCalls index name times

/-- Take a permit for the host without waiting. -/
def hold (s : Supervised) : Bool × Supervised :=
  let (taken, t) := s.turnstile.acquire
  (taken, s.withTurnstile t)

/-- Hand a permit of the host back. -/
def release (s : Supervised) : Bool × Supervised :=
  let (handed, t) := s.turnstile.release
  (handed, s.withTurnstile t)

end Supervised

end HotPath
