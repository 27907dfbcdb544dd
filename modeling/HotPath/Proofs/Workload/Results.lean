import HotPath.Proofs.Machine.Transparency
import HotPath.Proofs.Tier.Offers
import HotPath.Proofs.Workload.Assembly
import HotPath.Proofs.Workload.Mains
import HotPath.Workload.Run

/-!
# What runs of workloads come to

A plain call of `main` ends as `Prints` and `Collapses` say, from the state that the host
starts it in. Tiering being invisible, a call ends in the same way beside any profiler that
offers fusions, and so does the run of a plan, with or without the optimizer and
at any pace of its workers.
-/

namespace HotPath

namespace Machine

variable {p : Program} {f : Function} {index : Nat}

/-- Where a function without parameters stands when the host has just called it. -/
def begun (f : Function) (index : Nat) : Surroundings where
  frame := .make f index none 0
  callers := .empty
  counts := { calls := 1, deepest := 1 }

/-- The function that the host calls has no callers and no operands below its own. -/
theorem begun_fits (f : Function) (index : Nat) : Site.outermost.Fits (begun f index) := ⟨rfl, rfl⟩

/-- A call without arguments starts on empty slots. -/
theorem start_create (found : p.functions[index]? = some f) (arity : f.arity = 0) :
    start p Profiler.none () index [] (unwind (create {})) =
      .ok () ((Site.outermost.core ⟨.replicate f.localCount .null, [], .empty, #[]⟩).plug
        (begun f index)) := by
  have version : Profiler.none.version index f () = f := rfl
  let m : Machine := (unwind (create {})).loaded []
  have entries : m.stack.entries = #[] ++ #[] := rfl
  have room : m.depth < m.limits.callDepth := by decide
  have enters := enter_eq room entries (Nat.le_refl 0) arity.symm index none
  have slots : #[] ++ Array.replicate (f.localCount - 0) Value.null =
      (List.replicate f.localCount .null).toArray := by simp
  rw [start_of_room (by decide) found, version, enters]
  simp only [entered, Site.core, List.size_toArray, List.length_nil, slots]
  rfl

/-- What is left of a call once the function has begun. -/
theorem underway_create (found : p.functions[index]? = some f) (arity : f.arity = 0)
    (count : Nat) :
    underway p Profiler.none count index [] () (create {}) =
      run p Profiler.none count () ((Site.outermost.core
        ⟨.replicate f.localCount .null, [], .empty, #[]⟩).plug (begun f index)) := by
  have started := start_create found arity
  simp only [underway, Heap.importAll]
  rw [started]

section Calling

variable {name line : String} {heap : Heap} {fault : Fault} {made : Nat}
  (admitted : entryOf p name [] = .ok index) (found : p.functions[index]? = some f)
  (arity : f.arity = 0)

include admitted found arity

/-- The plain call of a function that prints one line. It counts as a call itself. -/
theorem Prints.call (prints : Prints p f line heap made) :
    ∃ count after, call p Profiler.none count name [] () (create {}) = .finished none () after ∧
      after.heap = heap ∧ after.output = #[line] ∧ after.counts.calls = 1 + made := by
  obtain ⟨block, body, finishes⟩ := prints
  obtain ⟨count, after, ran, result⟩ := finishes (begun f index) (begun_fits f index) body rfl
  refine ⟨count, after, ?_, result⟩
  rw [call_eq_underway p Profiler.none admitted, underway_create found arity, ran]

/-- The plain call of a function that faults before it prints anything. -/
theorem Collapses.call (collapses : Collapses p f fault) :
    ∃ count after, call p Profiler.none count name [] () (create {}) = .faulted fault () after ∧
      after.output = #[] := by
  obtain ⟨block, body, fails⟩ := collapses
  obtain ⟨count, after, ran, output⟩ := fails (begun f index) (begun_fits f index) body
  refine ⟨count, after.unwind, ?_, output⟩
  rw [call_eq_underway p Profiler.none admitted, underway_create found arity, ran]

end Calling

end Machine

namespace Workload

open Machine

variable (w : Workload) (calls iterations : UInt32)

/-- A run has ended as the sizes of its workload ask for: with the closed form of its total, or with
an array that cannot be created, or with a call too many. -/
structure EndsAs (result : ResultCode) (output : List String) (live : Nat) : Prop where
  total : w.Fits calls iterations →
    result = .success ∧ output = [toString (w.expectedTotal calls iterations).toInt] ∧ live = 0
  tooLong : w = arraySum → 0x1000000 < iterations.toNat →
    result = .arrayIndexOutOfBounds ∧ output = []
  tooDeep : w = fib → calls ≠ 0 → 1024 ≤ iterations.toNat →
    result = .callStackOverflow ∧ output = []

/-- The host sees a call of `main` that has ended as its sizes ask for. -/
def Ended {σ : Type} (status : Status σ (Option HostValue)) : Prop :=
  ∃ outcome, status.outcome? = some outcome ∧
    w.EndsAs calls iterations (resultOf outcome).1 status.machine.output.toList
      status.machine.heap.counts.live

variable {w calls iterations}

namespace EndsAs

variable {live : Nat}

/-- A plan that fits ends with its total on one line, and nothing alive. -/
theorem of_fits (within : w.Fits calls iterations) :
    w.EndsAs calls iterations .success [toString (w.expectedTotal calls iterations).toInt] 0 where
  total := fun _ => ⟨rfl, rfl, rfl⟩
  tooLong := by
    intro sum long
    exact absurd (within.2 sum) (Nat.not_le_of_lt long)
  tooDeep := by
    intro recursive called deep
    rcases within.1 recursive with none_called | shallow
    · exact absurd none_called called
    · omega

/-- An array that is too long ends with its length refused. -/
theorem of_long (long : 0x1000000 < iterations.toNat) :
    arraySum.EndsAs calls iterations .arrayIndexOutOfBounds [] live where
  total := fun within => absurd (within.2 rfl) (Nat.not_le_of_lt long)
  tooLong := fun _ _ => ⟨rfl, rfl⟩
  tooDeep := by
    intro recursive
    cases recursive

/-- A recursion that is too deep ends at the limit on calls. -/
theorem of_deep (called : calls ≠ 0) (deep : 1024 ≤ iterations.toNat) :
    fib.EndsAs calls iterations .callStackOverflow [] live where
  total := by
    intro within
    rcases within.1 rfl with none_called | shallow
    · exact absurd none_called called
    · omega
  tooLong := by
    intro sum
    cases sum
  tooDeep := fun _ _ _ => ⟨rfl, rfl⟩

end EndsAs

/-- A workload that does not fit asks for too long an array or for too deep a recursion. -/
theorem not_fits (outside : ¬ w.Fits calls iterations) :
    (w = arraySum ∧ 0x1000000 < iterations.toNat) ∨
      (w = fib ∧ calls ≠ 0 ∧ 1024 ≤ iterations.toNat) := by
  by_cases sum : w = arraySum
  · refine .inl ⟨sum, Nat.lt_of_not_le ?_⟩
    intro short
    apply outside
    constructor
    · rintro rfl
      cases sum
    · exact fun _ => short
  · refine .inr ?_
    by_contra fitting
    apply outside
    constructor
    · intro recursive
      by_cases called : calls = 0
      · exact .inl called
      · refine .inr (Nat.le_of_not_lt ?_)
        intro deep
        exact fitting ⟨recursive, called, deep⟩
    · exact fun same => absurd same sum

/-- A plain call of `main` has ended as the sizes ask for, and has not run out of room for
operands. -/
def EndsPlainly (w : Workload) (calls iterations : UInt32) (count : Nat) : Prop :=
  let status := callEntry (w.program calls iterations) Profiler.none count [] () (create {})
  w.Ended calls iterations status ∧
    ∀ limit, status.outcome? ≠ some (.error (.stackOverflow limit))

/-- The entry of a workload has no parameters. -/
theorem arity_main (k : ConstantPlaces) (w : Workload) (worker : Nat) :
    (w.main k worker).arity = 0 := by
  cases w <;> rfl

/-- A plan that fits ends plainly. -/
theorem endsPlainly_of_fits (within : w.Fits calls iterations) :
    ∃ count, w.EndsPlainly calls iterations count := by
  obtain ⟨heap, nothing, prints⟩ := main_prints within
  obtain ⟨count, after, ended, left, printed, _⟩ := prints.call (entryOf_program w calls iterations)
    (functions_main w calls iterations) (arity_main _ w 0)
  refine ⟨count, ?_⟩
  rw [EndsPlainly, callEntry, ended]
  constructor
  · refine ⟨.ok none, rfl, ?_⟩
    simp only [Status.machine, printed, left, nothing]
    exact .of_fits within
  · intro limit same
    cases same

/-- A plan whose entry collapses ends plainly, if that is the fault that was asked for. -/
theorem endsPlainly_of_collapses {fault : Fault}
    (collapses : Collapses (w.program calls iterations) (w.main (placesOf calls iterations) 0) fault)
    (spared : ∀ limit, fault ≠ .stackOverflow limit)
    (asked : ∀ live, w.EndsAs calls iterations fault.code [] live) :
    ∃ count, w.EndsPlainly calls iterations count := by
  obtain ⟨count, after, ended, printed⟩ := collapses.call (entryOf_program w calls iterations)
    (functions_main w calls iterations) (arity_main _ w 0)
  refine ⟨count, ?_⟩
  rw [EndsPlainly, callEntry, ended]
  constructor
  · refine ⟨.error fault, rfl, ?_⟩
    simp only [Status.machine, printed]
    exact asked _
  · intro limit same
    cases same
    exact spared limit rfl

/-- Every plan ends plainly after some number of steps. -/
theorem endsPlainly (w : Workload) (calls iterations : UInt32) :
    ∃ count, w.EndsPlainly calls iterations count := by
  by_cases within : w.Fits calls iterations
  · exact endsPlainly_of_fits within
  rcases not_fits within with ⟨rfl, long⟩ | ⟨rfl, called, deep⟩
  · apply endsPlainly_of_collapses (main_collapses_arraySum long)
    · intro limit same
      cases same
    · exact fun _ => .of_long long
  · have positive : 0 < calls.toNat := by
      apply Nat.pos_of_ne_zero
      intro zero
      exact called (UInt32.toNat_inj.mp zero)
    apply endsPlainly_of_collapses (main_collapses_fib positive deep)
    · intro limit same
      cases same
    · exact fun _ => .of_deep called deep

/-- Beside any profiler that offers fusions, every call with enough fuel ends as the sizes ask
for. -/
theorem ends_beside {σ : Type} {profiler : Profiler σ} {u : σ}
    (offers : profiler.OffersFusions (w.program calls iterations) u) :
    ∃ enough, ∀ fuel, enough ≤ fuel → w.Ended calls iterations
      (callEntry (w.program calls iterations) profiler fuel [] u (create {})) := by
  obtain ⟨count, ⟨outcome, ended, asked⟩, spared⟩ := endsPlainly w calls iterations
  refine ⟨count, ?_⟩
  intro fuel enough
  obtain ⟨more, rfl⟩ := Nat.exists_eq_add_of_le enough
  have longer := call_add_of_ended ended more
  have still : (callEntry (w.program calls iterations) Profiler.none (count + more) [] ()
      (create {})).outcome? = some outcome := by
    rw [callEntry, longer]
    exact ended
  have roomy : ∀ limit, outcome ≠ .error (.stackOverflow limit) := by
    rintro limit rfl
    exact spared limit ended
  obtain ⟨same, alike⟩ := call_of_plain (Hosted.created {}).balanced offers still roomy
  refine ⟨outcome, same, ?_⟩
  rw [longer] at alike
  rw [callEntry, alike.output, alike.heap]
  exact asked

end Workload

namespace Plan

open Machine

variable (plan : Plan) (pace : Pace)

/-- Whatever the pace of its optimizer, a plan ends as it should once there is enough fuel. -/
theorem execute_ends : ∃ enough, ∀ fuel, enough ≤ fuel →
    plan.workload.Ended plan.calls plan.iterations (plan.execute pace fuel) := by
  unfold execute
  cases plan.optimize with
  | false => exact Workload.ends_beside (Profiler.none_offersFusions plan.program _)
  | true =>
    have genuine := Optimizer.Genuine.create plan.program plan.settings
    exact Workload.ends_beside (Optimizer.profiler_offersFusions genuine pace)

variable {plan pace} {fuel : Nat}

/-- The report of a run that has ended tells how. -/
theorem result_run {outcome : Except Fault (Option HostValue)}
    (ended : (plan.execute pace fuel).outcome? = some outcome) :
    (plan.run pace fuel).report.result = (resultOf outcome).1 := by
  unfold run
  cases reached : plan.execute pace fuel with
  | running w m =>
    rw [reached] at ended
    cases ended
  | finished answer w m =>
    rw [reached] at ended
    cases ended
    rfl
  | faulted fault w m =>
    rw [reached] at ended
    cases ended
    rfl

/-- The report of a plan that has ended says how it ended. -/
theorem report_endsAs
    (ended : plan.workload.Ended plan.calls plan.iterations (plan.execute pace fuel)) :
    plan.workload.EndsAs plan.calls plan.iterations (plan.run pace fuel).report.result
      (plan.run pace fuel).report.output (plan.run pace fuel).report.liveArrays := by
  obtain ⟨outcome, reached, asked⟩ := ended
  rw [result_run reached]
  exact asked

/-- A report of the expected total is verified. -/
theorem report_verified (success : (plan.run pace fuel).report.result = .success)
    (printed : (plan.run pace fuel).report.output =
      [toString (plan.workload.expectedTotal plan.calls plan.iterations).toInt]) :
    (plan.run pace fuel).report.verified = true := by
  have verdict : (plan.run pace fuel).report.verified =
      ((plan.run pace fuel).report.result.isSuccess &&
        decide ((plan.run pace fuel).report.output.getLast? =
          some (toString (plan.workload.expectedTotal plan.calls plan.iterations).toInt))) := rfl
  rw [verdict, success, printed]
  simp [ResultCode.isSuccess]

/-- Every workload computes its closed form, for every size. Assembling it gives its program; beside
any profiler that offers fusions, and so whenever an optimizer publishes, the call of `main` ends as
the sizes ask for, and so does the run of a plan, which is verified when the sizes fit. -/
theorem run_closedForm (plan : Plan) (pace : Pace) :
    plan.workload.build plan.calls plan.iterations = .ok plan.program ∧
    (∀ {σ : Type} (profiler : Profiler σ) (u : σ), profiler.OffersFusions plan.program u →
      ∃ enough, ∀ fuel, enough ≤ fuel → plan.workload.Ended plan.calls plan.iterations
        (callEntry plan.program profiler fuel [] u (create {}))) ∧
    ∃ enough, ∀ fuel, enough ≤ fuel →
      (∃ outcome, (plan.execute pace fuel).outcome? = some outcome) ∧
      plan.workload.EndsAs plan.calls plan.iterations (plan.run pace fuel).report.result
        (plan.run pace fuel).report.output (plan.run pace fuel).report.liveArrays ∧
      (plan.workload.Fits plan.calls plan.iterations →
        (plan.run pace fuel).report.verified = true) := by
  refine ⟨plan.workload.build_eq plan.calls plan.iterations, ?_, ?_⟩
  · intro σ profiler u offers
    exact Workload.ends_beside offers
  · obtain ⟨enough, ends⟩ := plan.execute_ends pace
    refine ⟨enough, ?_⟩
    intro fuel within
    have ended := ends fuel within
    have asked := report_endsAs ended
    refine ⟨?_, asked, ?_⟩
    · obtain ⟨outcome, reached, _⟩ := ended
      exact ⟨outcome, reached⟩
    · intro fits
      obtain ⟨success, printed, _⟩ := asked.total fits
      exact report_verified success printed

/-- Two calls for the third Fibonacci number, with an optimizer and with everything fused. -/
theorem run_closedForm_fib :
    let plan : Plan := { workload := .fib, calls := 2, iterations := 3 }
    (∃ enough, ∀ fuel, enough ≤ fuel →
      (plan.run .prompt fuel).report.result = .success ∧
      (plan.run .prompt fuel).report.output = ["4"] ∧
      (plan.run .prompt fuel).report.liveArrays = 0 ∧
      (plan.run .prompt fuel).report.verified = true) ∧
    ∃ enough, ∀ fuel, enough ≤ fuel → Workload.fib.Ended 2 3
      (callEntry plan.program (eager plan.program) fuel [] () (create {})) := by
  intro plan
  obtain ⟨_, beside, enough, ends⟩ := run_closedForm plan .prompt
  refine ⟨⟨enough, ?_⟩, beside _ _ (eager_offersFusions plan.program)⟩
  intro fuel within
  obtain ⟨_, asked, verified⟩ := ends fuel within
  have fits : Workload.fib.Fits 2 3 := ⟨fun _ => .inr (by decide), fun same => by cases same⟩
  have total : toString (Workload.fib.expectedTotal 2 3).toInt = "4" := by decide
  obtain ⟨success, printed, live⟩ := asked.total fits
  rw [total] at printed
  exact ⟨success, printed, live, verified fits⟩

end Plan

end HotPath
