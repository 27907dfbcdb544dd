import HotPath.Proofs.Machine.Reporting
import HotPath.Proofs.Tier.Phases
import HotPath.Proofs.Workload.Results

/-!
# What tiering comes to for the workloads

Only the worker of a workload is ever called, by `main` and perhaps by itself, so an optimizer
hears of no other function. How often it is called is known, and so is what fusing makes of it.
Together they decide where the worker stands when the run has ended and no job is
pending, whenever the workers of the optimizer got to the job.
-/

namespace HotPath

namespace Segment

/-- Whether four instructions are a span depends on one constant only. -/
theorem direction?_congr {constants others : Array Int64} {one : Instruction}
    (load change store : Instruction)
    (agree : one.opcode = .pushInt → constants[one.index]? = others[one.index]?) :
    direction? constants load one change store = direction? others load one change store := by
  unfold direction?
  by_cases push : one.opcode = .pushInt
  · rw [agree push]
  · simp only [push, false_and, and_false, if_false]

/-- Where a stream is cut depends on the constants that it pushes only. -/
theorem segments_congr {constants others : Array Int64} (targets : List Nat) (address : Nat)
    {instructions : List Instruction}
    (agree : ∀ i ∈ instructions, i.opcode = .pushInt → constants[i.index]? = others[i.index]?) :
    segments constants targets address instructions =
      segments others targets address instructions := by
  induction address, instructions using segments.induct constants targets with
  | case1 address load one change store rest direction found enters ih =>
    have same := direction?_congr load change store (agree one (by simp))
    have later := ih fun i member => agree i (List.mem_cons_of_mem _ member)
    rw [found] at same
    rw [segments, segments, found, ← same]
    simp only [enters, if_true, later]
  | case2 address load one change store rest direction found apart ih =>
    have same := direction?_congr load change store (agree one (by simp))
    have later := ih fun i member =>
      agree i (List.mem_append_right [load, one, change, store] member)
    rw [found] at same
    rw [segments, segments, found, ← same]
    simp only [apart, later, Bool.false_eq_true, if_false]
  | case3 address load one change store rest found ih =>
    have same := direction?_congr load change store (agree one (by simp))
    have later := ih fun i member => agree i (List.mem_cons_of_mem _ member)
    rw [found] at same
    rw [segments, segments, found, ← same]
    simp only [later]
  | case4 address first rest short ih =>
    have later := ih fun i member => agree i (List.mem_cons_of_mem _ member)
    rw [segments, segments, later] <;> exact short
  | case5 => rfl

end Segment

/-- Fusing a function depends on the constants that it pushes, and on nothing else of its
program. -/
theorem Function.fuse_congr {p q : Program} {f : Function} {instructions : List Instruction}
    (decoded : f.code.decode = .ok instructions)
    (agree : ∀ i ∈ instructions, i.opcode = .pushInt →
      p.intConstants[i.index]? = q.intConstants[i.index]?) : f.fuse p = f.fuse q := by
  unfold Function.fuse
  simp only [decoded, bind, Except.bind]
  cases Fusion.targets instructions.length 0 instructions with
  | error problem => rfl
  | ok targets => simp only [Segment.segments_congr targets 0 agree]

namespace Workload

open Machine

section Workers

variable (w : Workload) (calls iterations : UInt32)

/-- Whatever the sizes, the constants of the workers come first. -/
theorem placesOf_first :
    (placesOf calls iterations).zero = 0 ∧ (placesOf calls iterations).one = 1 ∧
      (placesOf calls iterations).two = 2 := by
  refine ⟨?_, ?_, ?_⟩
  · change ((({} : Pool Int64 Int64).intern id 0)).1 = 0
    decide +kernel
  · change ((({} : Pool Int64 Int64).intern id 0).2.intern id 1).1 = 1
    decide +kernel
  · change (((({} : Pool Int64 Int64).intern id 0).2.intern id 1).2.intern id 2).1 = 2
    decide +kernel

/-- The worker where the sizes are not known; it does not refer to them. -/
def sizeless : Function := w.worker ⟨0, 1, 2, 0, 0⟩ 0

/-- A worker is the same code for all sizes. -/
theorem worker_eq_sizeless : w.worker (placesOf calls iterations) 0 = w.sizeless := by
  obtain ⟨zero, one, two⟩ := placesOf_first calls iterations
  cases w with
  | counter => simp only [sizeless, worker, countedLoop, increment, clear, zero, one]
  | countdown => simp only [sizeless, worker, increment, decrement, clear, zero, one]
  | arraySum => simp only [sizeless, worker, countedLoop, increment, clear, zero, one]
  | fib => simp only [sizeless, worker, one, two]

/-- A program with no more than the constants that the workers refer to. -/
def constantsOnly : Program where
  intConstants := #[0, 1, 2]
  floatConstants := #[]
  functions := #[]
  entry := "main"

/-- How many spans of the worker can be fused. -/
def spans : Workload → Nat
  | counter | arraySum => 1
  | countdown => 2
  | fib => 0

/-- The spans of the workers can be counted on the constants that are always there. -/
theorem fuse_sizeless : (w.sizeless.fuse constantsOnly).map Fusion.count = .ok w.spans := by
  cases w <;> rfl

/-- The constants that come first are the same in every program of a workload. -/
theorem constants_first {place : Nat} (first : place < 3) :
    (w.program calls iterations).intConstants[place]? = constantsOnly.intConstants[place]? := by
  have supplied := program_supplied w calls iterations
  obtain ⟨atZero, atOne, atTwo⟩ := placesOf_first calls iterations
  have zero := supplied.zero
  have one := supplied.one
  have two := supplied.two
  rw [atZero] at zero
  rw [atOne] at one
  rw [atTwo] at two
  match place, first with
  | 0, _ => exact zero
  | 1, _ => exact one
  | 2, _ => exact two

/-- Fusing the worker succeeds, and this many spans are fused. -/
theorem fuse_worker :
    ∃ fusion, w.sizeless.fuse (w.program calls iterations) = .ok fusion ∧
      fusion.count = w.spans := by
  obtain ⟨instructions, decoded, small⟩ : ∃ instructions,
      w.sizeless.code.decode = .ok instructions ∧
        ∀ i ∈ instructions, i.opcode = .pushInt → i.index < 3 := by
    cases w <;> exact ⟨_, Code.decode_ofList _, by decide +kernel⟩
  have same : w.sizeless.fuse (w.program calls iterations) = w.sizeless.fuse constantsOnly :=
    Function.fuse_congr decoded fun i member push =>
      constants_first w calls iterations (small i member push)
  have counted := fuse_sizeless w
  rw [← same] at counted
  cases fused : w.sizeless.fuse (w.program calls iterations) with
  | error problem =>
    rw [fused] at counted
    cases counted
  | ok fusion =>
    rw [fused] at counted
    exact ⟨fusion, rfl, Except.ok.inj counted⟩

/-- No function of a workload calls any but the worker. -/
theorem program_callsOnly : ∀ f ∈ (w.program calls iterations).functions, f.CallsOnly 0 := by
  rw [functions_program]
  intro f member
  simp only [List.mem_toArray, List.mem_cons, List.not_mem_nil, or_false] at member
  have index : (Instruction.make .call 0).index = 0 := rfl
  rcases member with rfl | rfl
  · cases w <;> refine .of_spells (Code.spells_ofList _) ?_
    all_goals simp [countedLoop, Block.loop, Block.skipUnless, clear, increment, decrement,
      returnSlot, index]
  · cases w <;> refine .of_spells (Code.spells_ofList _) ?_
    all_goals simp [countedLoop, Block.loop, clear, increment, addCall, printSlot, index]

end Workers

/-- How an optimizer stands once the worker has been called so many times and no job is pending:
what it has counted, and what it reports about the worker and about `main`. -/
structure Tiered (w : Workload) (made threshold : Nat) (tally : Tally)
    (worker main : FunctionReport) : Prop where
  names : worker.name = w.workerName ∧ main.name = "main"
  /-- The host calls `main` without a report. -/
  main : main.state = .cold ∧ main.calls = 0
  cold : made < threshold → tally = {} ∧ worker.state = .cold ∧ worker.calls = made
  optimized : threshold ≤ made → w ≠ fib →
    tally = { admitted := 1, completed := 1, fusions := w.spans } ∧ worker.state = .optimized ∧
      3 * w.spans ≤ worker.instructions ∧
      worker.optimizedInstructions = some (worker.instructions - 3 * w.spans)
  failed : threshold ≤ made → w = fib →
    tally = { admitted := 1, failed := 1 } ∧ worker.state = .failed

namespace Tiered

variable {w : Workload} {made threshold : Nat} {tally : Tally} {worker main : FunctionReport}
  (names : worker.name = w.workerName ∧ main.name = "main")
  (idle : main.state = .cold ∧ main.calls = 0)

include names idle

/-- With few calls the worker is cold, and no job has been taken on. -/
theorem of_few (few : made < threshold)
    (stands : tally = {} ∧ worker.state = .cold ∧ worker.calls = made) :
    w.Tiered made threshold tally worker main where
  names := names
  main := idle
  cold := fun _ => stands
  optimized := fun enough => absurd few (Nat.not_lt.mpr enough)
  failed := fun enough => absurd few (Nat.not_lt.mpr enough)

/-- A worker that has been fused has all its spans replaced. -/
theorem of_optimized (enough : threshold ≤ made) (iterative : w ≠ fib)
    (counted : tally = { admitted := 1, completed := 1, fusions := w.spans })
    (state : worker.state = .optimized) {left : Nat}
    (optimized : worker.optimizedInstructions = some left)
    (shorter : worker.instructions = left + 3 * w.spans) :
    w.Tiered made threshold tally worker main where
  names := names
  main := idle
  cold := fun few => absurd few (Nat.not_lt.mpr enough)
  optimized := by
    intro _ _
    rw [optimized, shorter, Nat.add_sub_cancel]
    exact ⟨counted, state, Nat.le_add_left _ _, rfl⟩
  failed := fun _ recursive => absurd recursive iterative

/-- The recursive worker has no spans, so its only job fails. -/
theorem of_failed (enough : threshold ≤ made) (recursive : w = fib)
    (stands : tally = { admitted := 1, failed := 1 } ∧ worker.state = .failed) :
    w.Tiered made threshold tally worker main where
  names := names
  main := idle
  cold := fun few => absurd few (Nat.not_lt.mpr enough)
  optimized := fun _ iterative => absurd recursive iterative
  failed := fun _ _ => stands

end Tiered

section Outcomes

variable {w : Workload} {calls iterations : UInt32} {settings : Settings} {made : Nat}
  {o : Optimizer}

/-- The job that an optimizer takes on for the worker. -/
def workerJob (w : Workload) : Job := ⟨w.workerName, 0⟩

/-- The program's entry is not called like a worker. -/
theorem main_ne_workerName : "main" ≠ w.workerName := by
  cases w <;> simp [workerName]

/-- What is published for the worker, if anything is. -/
theorem version?_workerJob (w : Workload) (calls iterations : UInt32) :
    (w = fib ∧ w.workerJob.version? (w.program calls iterations) = none) ∨
      w ≠ fib ∧ ∃ fusion, w.workerJob.version? (w.program calls iterations) = some fusion ∧
        fusion.count = w.spans ∧
        w.sizeless.instructionCount = fusion.function.instructionCount + 3 * w.spans := by
  obtain ⟨fusion, fused, count⟩ := fuse_worker w calls iterations
  have found := functions_worker w calls iterations
  rw [worker_eq_sizeless] at found
  have version : w.workerJob.version? (w.program calls iterations) =
      if fusion.changed then some fusion else none := by
    simp only [Job.version?, workerJob, found, fused]
  have shorter := Fusion.instructionCount_of_fuse fused
  rw [count] at shorter
  cases w with
  | fib =>
    refine .inl ⟨rfl, ?_⟩
    rw [version, if_neg]
    simp [Fusion.changed, count, spans]
  | _ =>
    refine .inr ⟨by simp, fusion, ?_, count, shorter⟩
    rw [version, if_pos]
    simp [Fusion.changed, count, spans]

/-- What an optimizer reports about the two functions. -/
theorem functionReports_eq (same : o.program = w.program calls iterations) :
    Plan.functionReports o =
      [{ name := w.workerName
         calls := o.callCount w.workerName
         state := o.stateOf w.workerName
         instructions := w.sizeless.instructionCount
         optimizedInstructions := (o.named? w.workerName).map Function.instructionCount },
       { name := "main"
         calls := o.callCount "main"
         state := o.stateOf "main"
         instructions := (w.main (placesOf calls iterations) 0).instructionCount
         optimizedInstructions := (o.named? "main").map Function.instructionCount }] := by
  have worker : w.sizeless.name = w.workerName := by cases w <;> rfl
  have main : (w.main (placesOf calls iterations) 0).name = "main" := by cases w <;> rfl
  rw [Plan.functionReports, same, functions_program, worker_eq_sizeless]
  simp only [List.map_cons, List.map_nil, worker, main]

/-- In the phases without a pending job, the worker and `main` stand as the number of calls
says. -/
theorem tiered_of_phase (phase : o.Phase (w.program calls iterations) settings w.workerJob made)
    (idle : o.isIdle = true) :
    ∃ worker main, Plan.functionReports o = [worker, main] ∧
      w.Tiered made settings.threshold o.tally worker main := by
  have main : o.stateOf "main" = .cold ∧ o.callCount "main" = 0 :=
    phase.stateOf_of_ne main_ne_workerName
  rcases phase.of_idle idle with ⟨few, counts, counted, rfl⟩ | ⟨enough, counts, rfl⟩
  · exact ⟨_, _, functionReports_eq rfl, .of_few ⟨rfl, rfl⟩ main few ⟨rfl, rfl, counted⟩⟩
  rcases version?_workerJob w calls iterations with
    ⟨recursive, unfused⟩ | ⟨iterative, fusion, fused, count, shorter⟩
  · have same : Optimizer.ended (w.program calls iterations) settings w.workerJob counts =
        .fruitless (w.program calls iterations) settings w.workerJob counts := by
      simp only [Optimizer.ended, unfused]
    rw [same] at main ⊢
    refine ⟨_, _, functionReports_eq rfl, .of_failed ⟨rfl, rfl⟩ main enough recursive ?_⟩
    exact ⟨rfl, Optimizer.stateOf_fruitless⟩
  · have same : Optimizer.ended (w.program calls iterations) settings w.workerJob counts =
        .optimized (w.program calls iterations) settings w.workerJob counts fusion := by
      simp only [Optimizer.ended, fused]
    have named : (Optimizer.optimized (w.program calls iterations) settings w.workerJob counts
        fusion).named? w.workerName = some fusion.function := Optimizer.named?_optimized
    rw [same] at main ⊢
    refine ⟨_, _, functionReports_eq rfl, .of_optimized ⟨rfl, rfl⟩ main enough iterative ?_
      Optimizer.stateOf_optimized ?_ shorter⟩
    · rw [← count]
      rfl
    · dsimp only
      rw [named, Option.map_some]

/-- A run that succeeds had room for its sizes. -/
theorem fits_of_success {σ : Type} {profiler : Profiler σ} {u : σ}
    (offers : profiler.OffersFusions (w.program calls iterations) u) {fuel : Nat}
    {answer : Option HostValue}
    (ended : (callEntry (w.program calls iterations) profiler fuel [] u (create {})).outcome? =
      some (.ok answer)) : w.Fits calls iterations := by
  by_contra outside
  obtain ⟨enough, ends⟩ := ends_beside offers
  obtain ⟨outcome, reached, asked⟩ := ends enough (Nat.le_refl _)
  have same := call_eq_of_ended ended reached
  rw [callEntry, ← same] at reached
  obtain rfl : outcome = .ok answer := Option.some.inj (reached.symm.trans ended)
  rcases not_fits outside with ⟨sum, long⟩ | ⟨recursive, called, deep⟩
  · cases (asked.tooLong sum long).1
  · cases (asked.tooDeep recursive called deep).1

/-- With room for its sizes and enough fuel a run succeeds. It makes as many calls as its sizes ask
for, beside the one of the host. -/
theorem succeeds_of_fits {σ : Type} {profiler : Profiler σ} {u : σ}
    (offers : profiler.OffersFusions (w.program calls iterations) u)
    (within : w.Fits calls iterations) :
    ∃ enough, ∀ fuel, enough ≤ fuel →
      let status := callEntry (w.program calls iterations) profiler fuel [] u (create {})
      status.outcome? = some (.ok none) ∧
        status.machine.counts.calls = w.callsMade calls iterations + 1 := by
  obtain ⟨heap, -, prints⟩ := main_prints within
  obtain ⟨count, after, finished, -, -, made⟩ := prints.call (entryOf_program w calls iterations)
    (functions_main w calls iterations) (arity_main _ w 0)
  have plain : (call (w.program calls iterations) Profiler.none count
      (w.program calls iterations).entry [] () (create {})).outcome? = some (.ok none) := by
    rw [finished]
    rfl
  obtain ⟨succeeds, alike⟩ := call_of_plain (Hosted.created {}).balanced offers plain
    (fun limit same => by cases same)
  refine ⟨count, ?_⟩
  intro fuel enough
  obtain ⟨more, rfl⟩ := Nat.exists_eq_add_of_le enough
  rw [callEntry, call_add_of_ended succeeds more]
  refine ⟨succeeds, ?_⟩
  rw [alike.counts.calls, finished, Nat.add_comm]
  exact made

/-- An execution that succeeds under any profiler has made as many calls as the plan asks for. -/
theorem calls_of_success {σ : Type} {profiler : Profiler σ} {u : σ}
    (offers : profiler.OffersFusions (w.program calls iterations) u) {fuel : Nat}
    {answer : Option HostValue}
    (ended : (callEntry (w.program calls iterations) profiler fuel [] u (create {})).outcome? =
      some (.ok answer)) :
    (callEntry (w.program calls iterations) profiler fuel [] u (create {})).machine.counts.calls =
      w.callsMade calls iterations + 1 := by
  obtain ⟨enough, succeeds⟩ := succeeds_of_fits offers (fits_of_success offers ended)
  obtain ⟨succeeded, made⟩ := succeeds enough (Nat.le_refl _)
  rw [callEntry, call_eq_of_ended ended succeeded]
  exact made

/-- A run that succeeds leaves the optimizer in the phase of as many calls as it has made. -/
theorem phase_of_success {σ : Type} {profiler : Profiler σ} {optimizer : σ → Optimizer} {u : σ}
    (reports : profiler.ReportsTo optimizer)
    (fresh : optimizer u = .create (w.program calls iterations) settings)
    (enabled : settings.enabled = true) (positive : 1 ≤ settings.threshold) {fuel : Nat}
    {answer : Option HostValue}
    (ended : (callEntry (w.program calls iterations) profiler fuel [] u (create {})).outcome? =
      some (.ok answer)) :
    let status := callEntry (w.program calls iterations) profiler fuel [] u (create {})
    status.machine.counts.calls = w.callsMade calls iterations + 1 ∧
      Optimizer.Phase (w.program calls iterations) settings w.workerJob
        (w.callsMade calls iterations) (optimizer status.profile) := by
  have genuine : (optimizer u).Genuine (w.program calls iterations) := by
    rw [fresh]
    exact .create _ settings
  have offers := reports.offersFusions genuine
  have made := calls_of_success offers ended
  refine ⟨made, ?_⟩
  obtain ⟨n, counted, told⟩ := call_told (functions_worker w calls iterations)
    (program_callsOnly w calls iterations) offers (Hosted.created {}).balanced ended
  have start : (create {}).counts.calls = 0 := rfl
  obtain rfl : n = w.callsMade calls iterations := by
    rw [callEntry, counted, start] at made
    omega
  have named : (w.worker (placesOf calls iterations) 0).name = w.workerJob.name := by
    cases w <;> rfl
  have first : Optimizer.Phase (w.program calls iterations) settings w.workerJob 0
      (optimizer u) := by
    rw [fresh]
    exact .create positive
  have phase := first.iterate reports enabled named (w.callsMade calls iterations)
  rw [Nat.zero_add] at phase
  rw [callEntry, told]
  exact phase

end Outcomes

end Workload

namespace Plan

open Machine

section Optimizing

variable {plan : Plan} (pace : Pace) (fuel : Nat) (optimizes : plan.optimize = true)

include optimizes

/-- A plan that optimizes executes its program under the optimizer. -/
theorem execute_eq : plan.execute pace fuel = callEntry plan.program (Optimizer.profiler pace) fuel
    [] ⟨Optimizer.create plan.program plan.settings, 0⟩ (create {}) := by
  simp only [execute, optimizes, if_true]

/-- The report is about the optimizer as its workers leave it. -/
theorem report_eq :
    (plan.run pace fuel).report.tally = (plan.execute pace fuel).profile.optimizer.settle.tally ∧
      (plan.run pace fuel).report.functions =
        functionReports (plan.execute pace fuel).profile.optimizer.settle := by
  constructor <;> simp only [run, optimizes, if_true]

end Optimizing

/-- The number of calls alone decides what tiering comes to in a run that succeeds. It is that of
the worker, as often as the machine has carried out a call. Fewer calls than the threshold leave
everything cold; otherwise there has been one job, which was not given up, and the worker
has been optimized, or has failed if it is the one without a span that can be fused. This is
what the run of a plan reports at any pace, and what any optimizer says to which the calls
are reported, whenever its workers get to their jobs, once none is pending. -/
theorem tiering_decided (plan : Plan) (optimizes : plan.optimize = true)
    (enabled : plan.settings.enabled = true) (positive : 1 ≤ plan.settings.threshold) :
    let made := plan.workload.callsMade plan.calls plan.iterations
    (∀ (pace : Pace) (fuel : Nat) (answer : Option HostValue),
      (plan.execute pace fuel).outcome? = some (.ok answer) →
        (plan.execute pace fuel).machine.counts.calls = made + 1 ∧
        ∃ worker main, (plan.run pace fuel).report.functions = [worker, main] ∧
          plan.workload.Tiered made plan.settings.threshold (plan.run pace fuel).report.tally
            worker main) ∧
    ∀ {σ : Type} (profiler : Profiler σ) (optimizer : σ → Optimizer) (u : σ),
      profiler.ReportsTo optimizer → optimizer u = .create plan.program plan.settings →
      ∀ (fuel : Nat) (answer : Option HostValue),
        let status := callEntry plan.program profiler fuel [] u (create {})
        status.outcome? = some (.ok answer) →
          status.machine.counts.calls = made + 1 ∧
          ∀ positions, ((optimizer status.profile).works positions).isIdle = true →
            ∃ worker main,
              functionReports ((optimizer status.profile).works positions) = [worker, main] ∧
              plan.workload.Tiered made plan.settings.threshold
                ((optimizer status.profile).works positions).tally worker main := by
  intro made
  constructor
  · intro pace fuel answer ended
    obtain ⟨tally, functions⟩ := report_eq pace fuel optimizes
    rw [tally, functions]
    rw [execute_eq pace fuel optimizes] at ended ⊢
    obtain ⟨counted, phase⟩ := Workload.phase_of_success (Optimizer.profiler_reportsTo pace) rfl
      enabled positive ended
    exact ⟨counted, Workload.tiered_of_phase phase.settle phase.settle_isIdle⟩
  · intro σ profiler optimizer u reports fresh fuel answer status ended
    obtain ⟨counted, phase⟩ := Workload.phase_of_success reports fresh enabled positive ended
    exact ⟨counted, fun positions idle => Workload.tiered_of_phase (phase.works positions) idle⟩

/-- Three calls of a worker with two spans, of which the second makes it hot. -/
theorem tiering_decided_countdown :
    let plan : Plan :=
      { workload := .countdown, calls := 3, iterations := 1, settings := { threshold := 2 } }
    plan.optimize = true ∧ plan.settings.enabled = true ∧ 1 ≤ plan.settings.threshold ∧
      ∀ pace, ∃ enough, ∀ fuel, enough ≤ fuel →
        (plan.execute pace fuel).outcome? = some (.ok none) ∧
        (plan.execute pace fuel).machine.counts.calls = 4 ∧
        (plan.run pace fuel).report.tally = { admitted := 1, completed := 1, fusions := 2 } ∧
        (plan.run pace fuel).report.functions.map FunctionReport.state = [.optimized, .cold] := by
  intro plan
  refine ⟨rfl, rfl, by decide, ?_⟩
  intro pace
  have fits : Workload.countdown.Fits 3 1 := ⟨nofun, nofun⟩
  have genuine := Optimizer.Genuine.create plan.program plan.settings
  obtain ⟨enough, succeeds⟩ := Workload.succeeds_of_fits
    (Optimizer.profiler_offersFusions (w := ⟨_, 0⟩) genuine pace) fits
  refine ⟨enough, ?_⟩
  intro fuel within
  obtain ⟨success, -⟩ := succeeds fuel within
  have ended : (plan.execute pace fuel).outcome? = some (.ok none) := by
    rw [execute_eq pace fuel rfl]
    exact success
  obtain ⟨counted, worker, main, functions, tiered⟩ :=
    (tiering_decided plan rfl rfl (by decide)).1 pace fuel none ended
  obtain ⟨tally, state, -⟩ := tiered.optimized (by decide) (by decide)
  refine ⟨ended, counted, tally, ?_⟩
  rw [functions, List.map_cons, List.map_cons, List.map_nil, state, tiered.main.1]

end Plan

end HotPath
