/-!
# Settings of the optimizer

The `with` functions keep the numbers that must not be zero at one or more.
Times are in milliseconds.
-/

namespace HotPath

/-- How the optimizer goes about its work. -/
structure Settings where
  /-- The call with which a function becomes hot. -/
  threshold : Nat := 1000
  /-- How many jobs can be worked on side by side. -/
  workers : Nat := 1
  /-- How many jobs the gate lets through at once. -/
  jobs : Nat := 1
  /-- How long a job waits at the gate before it is given up. -/
  admissionTimeout : Nat := 5000
  /-- How long a shutdown waits for the workers. -/
  shutdownTimeout : Nat := 2000
  /-- Whether calls are counted from the start. -/
  enabled : Bool := true
deriving DecidableEq, Repr, Inhabited

namespace Settings

/-- Set the call with which a function becomes hot. -/
def withThreshold (s : Settings) (threshold : Nat) : Settings :=
  { s with threshold := max threshold 1 }

/-- Set the number of workers. -/
def withWorkers (s : Settings) (workers : Nat) : Settings :=
  { s with workers := max workers 1 }

/-- Set the size of the gate. -/
def withJobs (s : Settings) (jobs : Nat) : Settings :=
  { s with jobs := max jobs 1 }

end Settings

end HotPath
