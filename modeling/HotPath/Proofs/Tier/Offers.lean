import HotPath.Proofs.Machine.Tiering
import HotPath.Proofs.Tier.Lifecycle
import HotPath.Tier.Schedule

/-!
# An optimizer offers fusions only

Every version that an optimizer publishes is what fusing gives for the function at the
index of the job, whenever its workers get to it: `Genuine` is preserved by counting a call
and by the workers. So a machine that an optimizer watches is tiered in the
sense of `Profiler.OffersFusions`, at any pace.

`Profiler.ReportsTo` says what it means to watch a machine: every call is reported, and the workers
may get to their jobs at any time, also while the machine is between two calls.
-/

namespace HotPath

namespace Optimizer

/-- Workers take the jobs at these positions of the queue, one after another. -/
def works (o : Optimizer) (positions : List Nat) : Optimizer := positions.foldl process o

/-- The optimizer is that of a program, and every version on offer is what fusing gives for the
function that it is offered for. -/
structure Genuine (p : Program) (o : Optimizer) : Prop where
  program : o.program = p
  fused : ∀ q ∈ o.published, ∃ f, p.functions[q.job.index]? = some f ∧ f.fuse p = .ok q.version

namespace Genuine

variable {p : Program} {o : Optimizer}

/-- A new optimizer offers nothing. -/
theorem create (p : Program) (settings : Settings) :
    (Optimizer.create p settings).Genuine p where
  program := rfl
  fused := by
    intro q member
    cases member

/-- What an attempt publishes is a function of the program, fused. -/
theorem attempt (genuine : o.Genuine p) (job : Job) : (o.attempt job).Genuine p := by
  rcases o.attempt_cases job with failed | ⟨f, version, found, fused, published⟩
  · rw [failed]
    exact ⟨genuine.program, genuine.fused⟩
  · rw [published]
    unfold publish
    split
    next => exact ⟨genuine.program, genuine.fused⟩
    next =>
      refine ⟨genuine.program, ?_⟩
      intro q member
      rcases List.mem_append.mp member with earlier | latest
      · exact genuine.fused q earlier
      · obtain rfl := List.mem_singleton.mp latest
        rw [genuine.program] at found fused
        exact ⟨f, found, fused⟩

/-- Whatever a worker does with a job, the versions stay genuine. -/
theorem work (genuine : o.Genuine p) (job : Job) : (o.work job).Genuine p := by
  rcases o.work_cases job with cancelled | ⟨inside, outside, attempted⟩
  · rw [cancelled]
    exact ⟨genuine.program, genuine.fused⟩
  · have gated : ({ o with gate := inside } : Optimizer).Genuine p :=
      ⟨genuine.program, genuine.fused⟩
    have tried := gated.attempt job
    rw [attempted]
    exact ⟨tried.program, tried.fused⟩

/-- A worker may take a job from any place of the queue. -/
theorem process (genuine : o.Genuine p) (position : Nat) : (o.process position).Genuine p := by
  rcases o.process_cases position with idle | ⟨job, rest, _, processed⟩
  · rwa [idle]
  · have taken : ({ o with queue := rest } : Optimizer).Genuine p :=
      ⟨genuine.program, genuine.fused⟩
    have worked := taken.work job
    rw [processed]
    exact ⟨worked.program, worked.fused⟩

/-- A call publishes nothing. -/
theorem recordCall (genuine : o.Genuine p) (index : Nat) (name : String) :
    (o.recordCall index name).Genuine p := by
  rcases o.recordCall_cases index name with ignored | counted | ⟨_, _, _, taken⟩
  · rwa [ignored]
  · rw [counted]
    exact ⟨genuine.program, genuine.fused⟩
  · rw [taken]
    unfold submit
    dsimp only
    split
    next => exact ⟨genuine.program, genuine.fused⟩
    next => exact ⟨genuine.program, genuine.fused⟩

/-- Workers may take jobs from any places, one after another. -/
theorem works (genuine : o.Genuine p) (positions : List Nat) :
    (o.works positions).Genuine p := by
  induction positions generalizing o with
  | nil => exact genuine
  | cons position positions ih => exact ih (genuine.process position)

end Genuine

/-- Letting the workers go on is letting them take the first job a number of times. -/
theorem settle_eq_works (o : Optimizer) : ∃ positions, o.settle = o.works positions := by
  have first (fuel : Nat) (o : Optimizer) : o.processFirst fuel = o.works (.replicate fuel 0) := by
    induction fuel generalizing o with
    | zero => rfl
    | succ fuel ih => exact ih (o.process 0)
  unfold settle
  split
  next => exact ⟨_, first o.queue.length o⟩
  next => exact ⟨[], rfl⟩

end Optimizer

/-- A profiler reports calls to an optimizer. The workers may get to their jobs before a call is
reported, and between that and its execution. -/
structure Profiler.ReportsTo {σ : Type} (profiler : Profiler σ) (optimizer : σ → Optimizer) :
    Prop where
  recorded : ∀ index f u, ∃ early late, optimizer (profiler.recordCall index f u) =
    (((optimizer u).works early).recordCall index f.name).works late
  offered : ∀ index u, profiler.replacement? index u = (optimizer u).indexed? index

namespace Profiler.ReportsTo

variable {σ : Type} {profiler : Profiler σ} {optimizer : σ → Optimizer} {p : Program} {u v : σ}

/-- An optimizer stays genuine while it watches. -/
theorem genuine (reports : profiler.ReportsTo optimizer) (genuine : (optimizer u).Genuine p)
    (reached : profiler.Reaches p u v) : (optimizer v).Genuine p := by
  induction reached with
  | start => exact genuine
  | @recorded t _ index f found ih =>
    obtain ⟨early, late, reported⟩ := reports.recorded index f t
    rw [reported]
    exact ((ih.works early).recordCall index f.name).works late

/-- A machine is offered nothing but what fusing gives, whenever the workers get to their jobs. -/
theorem offersFusions (reports : profiler.ReportsTo optimizer)
    (genuine : (optimizer u).Genuine p) : profiler.OffersFusions p u := by
  intro v reached index f version found offered
  rw [reports.offered] at offered
  obtain ⟨q, first, rfl⟩ := Option.map_eq_some_iff.mp offered
  have member := List.mem_of_find?_eq_some first
  have position : q.job.index = index := by simpa using List.find?_some first
  obtain ⟨g, sited, fused⟩ := (reports.genuine genuine reached).fused q member
  rw [position, found] at sited
  cases sited
  exact ⟨q.version, fused, rfl⟩

end Profiler.ReportsTo

namespace Optimizer

variable {p : Program} {w : Watch}

/-- The profiler of an optimizer reports calls to it and looks versions up in it. -/
theorem profiler_reportsTo (pace : Pace) :
    (Optimizer.profiler pace).ReportsTo Watch.optimizer where
  recorded := by
    intro index f u
    simp only [Optimizer.profiler]
    split
    next =>
      obtain ⟨late, settled⟩ := (u.optimizer.recordCall index f.name).settle_eq_works
      exact ⟨[], late, settled⟩
    next => exact ⟨[], [], rfl⟩
  offered := fun _ _ => rfl

/-- A machine is offered nothing but what fusing gives, whatever the pace of the workers. -/
theorem profiler_offersFusions (genuine : w.optimizer.Genuine p) (pace : Pace) :
    (Optimizer.profiler pace).OffersFusions p w :=
  (profiler_reportsTo pace).offersFusions genuine

end Optimizer

end HotPath
