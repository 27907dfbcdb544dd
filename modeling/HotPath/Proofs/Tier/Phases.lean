import HotPath.Proofs.Tier.Offers
import HotPath.Proofs.Tier.Turns
import Mathlib.Logic.Function.Iterate

/-!
# The phases of a single name

When all calls are reported under one name, there is little an optimizer can come to. It counts
calls until the name is hot; then a job is waiting, for as long as the workers take to get to it;
and then the job has ended, with a version or without, and nothing changes any more. What
has come of it is the same whenever that was, as there is a permit for the only job and its
outcome is a matter of the program alone.

`Phase` lists these states, each in full, after a number of reported calls. Reports and workers
go from one to the next (`Phase.recordCall`, `Phase.process`), and once no job is pending
the number of calls alone decides between the first and the last (`Phase.of_idle`).
-/

namespace HotPath

/-- A new gate has a slot. -/
theorem Gate.available_make (capacity : Nat) : 0 < (Gate.make capacity).available :=
  Nat.lt_of_lt_of_le Nat.one_pos (Nat.le_max_right capacity 1)

/-- A permit that is handed back leaves the gate as it was made. -/
theorem Gate.acquire?_make (capacity : Nat) :
    ∃ inside, (Gate.make capacity).acquire? = some inside ∧ inside.release = .make capacity := by
  have free : 0 < max capacity 1 := Gate.available_make capacity
  have admits : (Gate.make capacity).admits = true := decide_eq_true free
  refine ⟨{ Gate.make capacity with available := max capacity 1 - 1 }, if_pos admits, ?_⟩
  simp only [Gate.release, Gate.make, Nat.sub_add_cancel free, Nat.min_self]

/-- What fusing gives for the function that a job is about, if that changes it. -/
def Job.version? (job : Job) (p : Program) : Option Fusion :=
  match p.functions[job.index]? with
  | none => none
  | some f =>
    match f.fuse p with
    | .ok version => if version.changed then some version else none
    | .error _ => none

namespace Optimizer

/-- What comes of a job is a matter of the program. -/
theorem attempt_eq (o : Optimizer) (job : Job) :
    o.attempt job = match job.version? o.program with
      | some version => o.publish job version
      | none => o.fail job := by
  unfold attempt Job.version?
  cases o.program.functions[job.index]? with
  | none => rfl
  | some f =>
    dsimp only
    cases f.fuse o.program with
    | error problem => rfl
    | ok version =>
      dsimp only
      split <;> rfl

section States

variable (p : Program) (settings : Settings) (job : Job) (calls : CallCounts)

/-- An optimizer that has counted these calls and has done nothing else. -/
def counting : Optimizer := { create p settings with calls }

/-- An optimizer that has taken on one job, to which no worker has got yet. -/
def waiting : Optimizer :=
  { counting p settings calls with
    inFlight := [job]
    tally := { admitted := 1 }
    pending := 1
    queue := [job] }

/-- An optimizer whose only job has ended with a version. -/
def optimized (version : Fusion) : Optimizer :=
  { counting p settings calls with
    published := [⟨job, version⟩]
    tally := { admitted := 1, completed := 1, fusions := version.count } }

/-- An optimizer whose only job has ended without a version. -/
def fruitless : Optimizer :=
  { counting p settings calls with
    failed := [job.name]
    tally := { admitted := 1, failed := 1 } }

/-- An optimizer whose only job has ended. -/
def ended : Optimizer :=
  match job.version? p with
  | some version => optimized p settings job calls version
  | none => fruitless p settings job calls

end States

section Steps

variable {p : Program} {settings : Settings} {job : Job} {calls : CallCounts}

/-- Whenever a worker gets to the job, it gets a permit, and the same comes of the job. -/
theorem process_waiting :
    (waiting p settings job calls).process 0 = ended p settings job calls := by
  obtain ⟨inside, acquired, released⟩ := Gate.acquire?_make settings.jobs
  have worked : ({ waiting p settings job calls with queue := [] } : Optimizer).work job =
      { ({ waiting p settings job calls with queue := [], gate := inside } : Optimizer).attempt job
        with gate := (({ waiting p settings job calls with queue := [], gate := inside } :
          Optimizer).attempt job).gate.release } := by
    have running : (waiting p settings job calls).hasShutDown = false := rfl
    have gate : (waiting p settings job calls).gate.acquire? = some inside := acquired
    simp only [work, running, gate, Bool.false_eq_true, if_false]
  have taken : (waiting p settings job calls).process 0 =
      (({ waiting p settings job calls with queue := [] } : Optimizer).work job).finishJob := rfl
  have program : ({ waiting p settings job calls with queue := [], gate := inside } :
      Optimizer).program = p := rfl
  rw [taken, worked, attempt_eq, program, ended]
  cases job.version? p with
  | some version =>
    simp [publish, named?, unmark, finishJob, waiting, optimized, counting, create, released]
  | none =>
    simp [fail, hasFailed, unmark, finishJob, waiting, fruitless, counting, create, released]

/-- There is only one job to get at. -/
theorem process_waiting_succ (position : Nat) :
    (waiting p settings job calls).process (position + 1) = waiting p settings job calls := rfl

/-- When the only job has ended there is nothing left for a worker. -/
theorem process_ended (position : Nat) :
    (ended p settings job calls).process position = ended p settings job calls := by
  unfold ended
  split <;> rfl

/-- The name of a job that has ended is settled. -/
theorem isSettled_ended : (ended p settings job calls).isSettled job.name = true := by
  unfold ended
  split
  next => simp [isSettled, named?, optimized]
  next => simp [isSettled, hasFailed, fruitless]

/-- The version of a job that has ended with one is on offer. -/
theorem named?_optimized {version : Fusion} :
    (optimized p settings job calls version).named? job.name = some version.function := by
  simp [named?, optimized]

/-- A name under which a version is on offer is optimized. -/
theorem stateOf_optimized {version : Fusion} :
    (optimized p settings job calls version).stateOf job.name = .optimized :=
  stateOf_of_named (by rw [named?_optimized, Option.isSome_some])

/-- A name without a version has failed once its job has ended. -/
theorem stateOf_fruitless : (fruitless p settings job calls).stateOf job.name = .failed := by
  simp [stateOf, named?, isInFlight, hasFailed, fruitless, counting, create]

variable (enabled : settings.enabled = true)

include enabled

/-- A call is counted, and the one that makes the name hot takes the job on. -/
theorem recordCall_counting :
    (counting p settings calls).recordCall job.index job.name =
      if (calls.bump job.name).get job.name < settings.threshold then
        counting p settings (calls.bump job.name)
      else waiting p settings job (calls.bump job.name) := by
  have running : (counting p settings (calls.bump job.name)).hasShutDown = false := rfl
  rcases (counting p settings calls).recordCall_split job.index job.name with
    ⟨off | settled, -⟩ | ⟨-, ⟨marked | few, same⟩ | ⟨⟨-, hot⟩, same⟩⟩
  · have on : (counting p settings calls).enabled = true := enabled
    rw [on] at off
    cases off
  · cases settled
  · cases marked
  · have cold : (calls.bump job.name).get job.name < settings.threshold := few
    rw [same, if_pos cold]
    rfl
  · have warm : ¬ (calls.bump job.name).get job.name < settings.threshold := Nat.not_lt.mpr hot
    rw [same, if_neg warm]
    exact submit_eq running job

/-- While the job waits, calls are counted. -/
theorem recordCall_waiting :
    (waiting p settings job calls).recordCall job.index job.name =
      waiting p settings job (calls.bump job.name) := by
  simp [recordCall, isSettled, named?, hasFailed, isInFlight, waiting, counting, create, enabled]

omit enabled in
/-- Once the job has ended, calls are not counted any more. -/
theorem recordCall_ended :
    (ended p settings job calls).recordCall job.index job.name = ended p settings job calls := by
  simp [recordCall, isSettled_ended]

end Steps

/-- The states that an optimizer can be in when so many calls have been reported to it, all under
the name of one job. -/
inductive Phase (p : Program) (settings : Settings) (job : Job) (n : Nat) : Optimizer → Prop where
  | counting {calls : CallCounts} (few : n < settings.threshold)
    (counted : calls.get job.name = n) (others : ∀ name, name ≠ job.name → calls.get name = 0) :
    Phase p settings job n (counting p settings calls)
  | waiting {calls : CallCounts} (enough : settings.threshold ≤ n)
    (others : ∀ name, name ≠ job.name → calls.get name = 0) :
    Phase p settings job n (waiting p settings job calls)
  | ended {calls : CallCounts} (enough : settings.threshold ≤ n)
    (others : ∀ name, name ≠ job.name → calls.get name = 0) :
    Phase p settings job n (ended p settings job calls)

namespace Phase

variable {p : Program} {settings : Settings} {job : Job} {n : Nat} {o : Optimizer}

/-- A new optimizer has counted no calls. -/
theorem create (positive : 0 < settings.threshold) :
    Phase p settings job 0 (Optimizer.create p settings) := by
  have fresh : Phase p settings job 0 (Optimizer.counting p settings {}) :=
    .counting positive rfl fun _ _ => rfl
  exact fresh

/-- Workers only end the job that is waiting. -/
theorem process (phase : Phase p settings job n o) (position : Nat) :
    Phase p settings job n (o.process position) := by
  cases phase with
  | counting few counted others => exact .counting few counted others
  | waiting enough others =>
    cases position with
    | zero =>
      rw [process_waiting]
      exact .ended enough others
    | succ position =>
      rw [process_waiting_succ]
      exact .waiting enough others
  | ended enough others =>
    rw [process_ended]
    exact .ended enough others

/-- However many workers get to whatever positions, the phase is one of those that the calls
allow. -/
theorem works (phase : Phase p settings job n o) (positions : List Nat) :
    Phase p settings job n (o.works positions) := by
  induction positions generalizing o with
  | nil => exact phase
  | cons position positions ih => exact ih (phase.process position)

/-- Letting the workers finish leads to a phase that the calls allow. -/
theorem settle (phase : Phase p settings job n o) : Phase p settings job n o.settle := by
  obtain ⟨positions, settled⟩ := o.settle_eq_works
  rw [settled]
  exact phase.works positions

/-- One more call is reported. -/
theorem recordCall (phase : Phase p settings job n o) (enabled : settings.enabled = true) :
    Phase p settings job (n + 1) (o.recordCall job.index job.name) := by
  have bumped {calls : CallCounts} (others : ∀ name, name ≠ job.name → calls.get name = 0)
      (name : String) (different : name ≠ job.name) : (calls.bump job.name).get name = 0 := by
    rw [calls.get_bump_of_ne different, others name different]
  cases phase with
  | @counting calls few counted others =>
    have next : (calls.bump job.name).get job.name = n + 1 := by
      rw [calls.get_bump_self, counted]
    rw [recordCall_counting enabled, next]
    split
    next still => exact .counting still next (bumped others)
    next hot => exact .waiting (Nat.le_of_not_lt hot) (bumped others)
  | waiting enough others =>
    rw [recordCall_waiting enabled]
    exact .waiting (Nat.le_succ_of_le enough) (bumped others)
  | ended enough others =>
    rw [recordCall_ended]
    exact .ended (Nat.le_succ_of_le enough) others

/-- However often a profiler reports calls under the name, and whenever the workers get to their
jobs, the optimizer is in one of the phases. -/
theorem iterate {σ : Type} {profiler : Profiler σ} {optimizer : σ → Optimizer}
    (reports : profiler.ReportsTo optimizer) (enabled : settings.enabled = true) {f : Function}
    (named : f.name = job.name) {u : σ} (phase : Phase p settings job n (optimizer u)) (k : Nat) :
    Phase p settings job (n + k) (optimizer ((profiler.recordCall job.index f)^[k] u)) := by
  induction k with
  | zero => exact phase
  | succ k ih =>
    obtain ⟨early, late, reported⟩ := reports.recorded job.index f
      ((profiler.recordCall job.index f)^[k] u)
    rw [Function.iterate_succ_apply', reported, named]
    exact ((ih.works early).recordCall enabled).works late

/-- The workers can always get to the end of the job. -/
theorem settle_isIdle (phase : Phase p settings job n o) : o.settle.isIdle = true := by
  have prompt {o : Optimizer} (gate : o.gate = .make settings.jobs) :
      o.settle = o.processFirst o.queue.length := by
    refine if_pos ?_
    simp only [isPrompt, gate, decide_eq_true (Gate.available_make settings.jobs), Bool.or_true,
      Bool.true_or]
  cases phase with
  | counting =>
    rw [prompt rfl]
    rfl
  | @waiting calls =>
    have once : (Optimizer.waiting p settings job calls).settle =
        (Optimizer.waiting p settings job calls).process 0 := prompt rfl
    rw [once, process_waiting]
    unfold Optimizer.ended
    split <;> rfl
  | @ended calls =>
    have gate : (Optimizer.ended p settings job calls).gate = .make settings.jobs := by
      unfold Optimizer.ended
      split <;> rfl
    rw [prompt gate]
    unfold Optimizer.ended
    split <;> rfl

/-- The other names are as they were. -/
theorem stateOf_of_ne (phase : Phase p settings job n o) {name : String}
    (different : name ≠ job.name) : o.stateOf name = .cold ∧ o.callCount name = 0 := by
  have apart : job.name ≠ name := Ne.symm different
  cases phase with
  | counting few counted others => exact ⟨rfl, others name different⟩
  | waiting enough others =>
    refine ⟨?_, others name different⟩
    simp [stateOf, named?, isInFlight, hasFailed, Optimizer.waiting, Optimizer.counting,
      Optimizer.create, apart]
  | ended enough others =>
    unfold Optimizer.ended
    split
    next version _ =>
      refine ⟨?_, others name different⟩
      simp [stateOf, named?, isInFlight, hasFailed, optimized, Optimizer.counting,
        Optimizer.create, apart]
    next =>
      refine ⟨?_, others name different⟩
      simp [stateOf, named?, isInFlight, hasFailed, fruitless, Optimizer.counting,
        Optimizer.create, different]

/-- When no job is pending, the number of calls decides what has become of the optimizer. -/
theorem of_idle (phase : Phase p settings job n o) (idle : o.isIdle = true) :
    (n < settings.threshold ∧ ∃ calls : CallCounts, calls.get job.name = n ∧
      o = Optimizer.counting p settings calls) ∨
    settings.threshold ≤ n ∧ ∃ calls : CallCounts, o = Optimizer.ended p settings job calls := by
  cases phase with
  | counting few counted others => exact .inl ⟨few, _, counted, rfl⟩
  | waiting => cases idle
  | ended enough others => exact .inr ⟨enough, _, rfl⟩

end Phase

end Optimizer

end HotPath
