import HotPath.Proofs.Tier.Slots
import HotPath.Proofs.Tier.Turns

/-!
# The workshop

`Optimizer.process` takes a job all the way at once. In a `Workshop` the jobs that have left the
queue are seen where they are: their workers wait at the gate, or hold a permit of it, beside the
host, which comes to the gate as well. `Workshop.next` lets all of them go on in any order, and
`process_eq` says that a worker whom nobody interrupts does what `process` does.

Two things are kept track of. At the gate a workshop is a `Crowd`, and `crowd_next` says which event
at the gate, if any, a step of the workshop is; so the slots are conserved. And every job that has
not ended is in the queue or with somebody at the gate (`Staffed`); so a job that has ended holds no
permit, and neither does any job once the optimizer is idle.
-/

namespace HotPath

namespace Optimizer

/-- A call is not about the gate. -/
theorem recordCall_gate (o : Optimizer) (index : Nat) (name : String) :
    (o.recordCall index name).gate = o.gate := by
  rcases o.recordCall_cases index name with same | counted | ⟨_, _, _, admitted⟩
  · rw [same]
  · rw [counted]
  · rw [admitted]
    unfold submit
    dsimp only
    split <;> rfl

/-- A worker that takes a job all the way at once leaves the gate as it was. -/
theorem process_gate (o : Optimizer) (room : o.gate.available ≤ o.gate.capacity) (position : Nat) :
    (o.process position).gate = o.gate := by
  cases found : o.queue[position]? with
  | none => simp only [process, found]
  | some job =>
    simp only [process, found, work, finishJob]
    split
    next => rfl
    next =>
      split
      next => rfl
      next inside acquired =>
        have tried : (({ o with queue := o.queue.eraseIdx position, gate := inside } :
            Optimizer).attempt job).gate = inside := (attempt_keeps _ job).2.2
        rw [tried]
        exact Gate.release_of_acquire? acquired room

end Optimizer

/-- Who comes to the gate of an optimizer. -/
inductive Visitor where
  | host (n : Nat)
  | worker (job : Job)
deriving DecidableEq, Repr

/-- The job that a visitor is there for. -/
def Visitor.job? : Visitor → Option Job
  | .host _ => none
  | .worker job => some job

/-- An optimizer, those who wait at its gate, and those who hold a permit of it. -/
structure Workshop where
  optimizer : Optimizer
  waiting : List Visitor := []
  permits : List Visitor := []
deriving DecidableEq, Repr

namespace Workshop

/-- The steps of those who are at work. -/
inductive Event where
  /-- A call of the program's function with this index is reported. -/
  | call (index : Nat)
  /-- A worker takes the job at this position of the queue and comes to the gate. -/
  | take (position : Nat) (patient : Bool)
  /-- The host comes to the gate. -/
  | come (n : Nat) (patient : Bool)
  /-- Someone who waits at the gate is woken. -/
  | wake (who : Visitor)
  /-- The wait of someone at the gate is over. -/
  | expire (who : Visitor)
  /-- The host hands a permit back, if it holds one. -/
  | handBack (n : Nat)
  /-- The worker of a job that has a permit does the job. -/
  | conclude (job : Job)
  | enable
  | disable
  | shutdown
deriving DecidableEq, Repr

/-- A new optimizer, and nobody at its gate. -/
def create (program : Program) (settings : Settings) : Workshop :=
  { optimizer := .create program settings }

/-- The workshop as it looks at the gate. -/
def crowd (w : Workshop) : Crowd Visitor := ⟨w.optimizer.gate, w.waiting, w.permits⟩

/-- The jobs of a list of visitors. -/
def jobs (visitors : List Visitor) : List Job := visitors.filterMap Visitor.job?

/-- The jobs that have left the queue and have not ended. -/
def underway (w : Workshop) : List Job := jobs (w.waiting ++ w.permits)

/-- A visitor goes away without a permit. If it is a worker, its job is given up. -/
def dismiss (w : Workshop) : Visitor → Workshop
  | .host _ => w
  | .worker job => { w with optimizer := (w.optimizer.cancel job).finishJob }

/-- A visitor looks at the gate, and goes in, or waits, or goes away. -/
def visit (w : Workshop) (who : Visitor) (patient : Bool) : Workshop :=
  match w.optimizer.gate.acquire? with
  | some inside =>
    { w with optimizer := { w.optimizer with gate := inside }, permits := who :: w.permits }
  | none =>
    if patient && !w.optimizer.gate.closed then { w with waiting := who :: w.waiting }
    else w.dismiss who

/-- A visitor no longer waits. -/
def leave (w : Workshop) (who : Visitor) : Workshop :=
  { w with waiting := w.waiting.erase who }

/-- A visitor hands a permit back. -/
def giveBack (w : Workshop) (who : Visitor) : Workshop :=
  { w with
    optimizer := { w.optimizer with gate := w.optimizer.gate.release }
    permits := w.permits.erase who }

/-- The job at a position of the queue is taken off it. -/
def takeOff (w : Workshop) (position : Nat) : Workshop :=
  { w with optimizer := { w.optimizer with queue := w.optimizer.queue.eraseIdx position } }

/-- The worker of a job that has a permit does the job and hands the permit back. -/
def finish (w : Workshop) (job : Job) : Workshop :=
  let done := { w with optimizer := w.optimizer.attempt job }.giveBack (.worker job)
  { done with optimizer := done.optimizer.finishJob }

/-- What a step leads to. -/
def next (w : Workshop) : Event → Workshop
  | .call index =>
    match w.optimizer.program.functions[index]? with
    | some f => { w with optimizer := w.optimizer.recordCall index f.name }
    | none => w
  | .take position patient =>
    match w.optimizer.queue[position]? with
    | some job =>
      if w.optimizer.hasShutDown then (w.takeOff position).dismiss (.worker job)
      else (w.takeOff position).visit (.worker job) patient
    | none => w
  | .come n patient => w.visit (.host n) patient
  | .wake who => if who ∈ w.waiting then (w.leave who).visit who true else w
  | .expire who => if who ∈ w.waiting then (w.leave who).visit who false else w
  | .handBack n => if .host n ∈ w.permits then w.giveBack (.host n) else w
  | .conclude job => if .worker job ∈ w.permits then w.finish job else w
  | .enable => { w with optimizer := w.optimizer.enable }
  | .disable => { w with optimizer := w.optimizer.disable }
  | .shutdown => { w with optimizer := w.optimizer.shutdown }

/-- What a sequence of steps leads to. -/
def after (w : Workshop) (steps : List Event) : Workshop := steps.foldl next w

/-- What a step is at the gate. -/
def gateEvent? (w : Workshop) : Event → Option (Crowd.Event Visitor)
  | .take position patient =>
    match w.optimizer.queue[position]? with
    | some job => if w.optimizer.hasShutDown then none else some (.come (.worker job) patient)
    | none => none
  | .come n patient => some (.come (.host n) patient)
  | .wake who => some (.wake who)
  | .expire who => some (.expire who)
  | .handBack n => some (.handBack (.host n))
  | .conclude job => some (.handBack (.worker job))
  | .shutdown => if w.optimizer.hasShutDown then none else some .close
  | .call _ | .enable | .disable => none

/-- What a sequence of steps is at the gate. -/
def gateEvents (w : Workshop) : List Event → List (Crowd.Event Visitor)
  | [] => []
  | step :: steps => (w.gateEvent? step).toList ++ (w.next step).gateEvents steps

section AtTheGate

variable (w : Workshop)

/-- Whoever goes away without a permit leaves the gate as it was. -/
theorem crowd_dismiss (who : Visitor) : (w.dismiss who).crowd = w.crowd := by
  cases who <;> rfl

/-- A visit is a look at the gate, whatever becomes of the visitor's job. -/
theorem crowd_visit (who : Visitor) (patient : Bool) :
    (w.visit who patient).crowd = w.crowd.look who patient := by
  have gate : w.crowd.gate = w.optimizer.gate := rfl
  unfold visit Crowd.look
  rw [gate]
  cases w.optimizer.gate.acquire? with
  | some inside => rfl
  | none =>
    dsimp only
    split
    next => rfl
    next => exact w.crowd_dismiss who

/-- A job that is done is a permit handed back, whatever comes of it. -/
theorem crowd_finish (job : Job) : (w.finish job).crowd = (w.giveBack (.worker job)).crowd := by
  have gate : (w.optimizer.attempt job).gate = w.optimizer.gate :=
    (w.optimizer.attempt_keeps job).2.2
  simp only [finish, giveBack, crowd, Optimizer.finishJob, gate]

/-- A step of the workshop is an event at the gate, or nothing happens there. -/
theorem crowd_next (step : Event) :
    (w.next step).crowd = w.crowd.after (w.gateEvent? step).toList := by
  cases step with
  | call index =>
    rw [next]
    split
    next f _ =>
      exact congrArg (Crowd.mk · w.waiting w.permits) (Optimizer.recordCall_gate _ index f.name)
    next => rfl
  | take position patient =>
    rw [next, gateEvent?]
    split
    next job _ =>
      split
      next => exact (w.takeOff position).crowd_dismiss (.worker job)
      next => exact (w.takeOff position).crowd_visit (.worker job) patient
    next => rfl
  | come n patient => exact w.crowd_visit (.host n) patient
  | wake who =>
    rw [next, apply_ite crowd, crowd_visit]
    rfl
  | expire who =>
    rw [next, apply_ite crowd, crowd_visit]
    rfl
  | handBack n =>
    rw [next, apply_ite crowd]
    rfl
  | conclude job =>
    rw [next, apply_ite crowd, crowd_finish]
    rfl
  | enable =>
    rw [next, Optimizer.enable]
    split <;> rfl
  | disable => rfl
  | shutdown =>
    rw [next, gateEvent?, Optimizer.shutdown]
    split <;> rfl

/-- A run of the workshop is a run of events at its gate. -/
theorem crowd_after (steps : List Event) :
    (w.after steps).crowd = w.crowd.after (w.gateEvents steps) := by
  induction steps generalizing w with
  | nil => rfl
  | cons step steps ih =>
    rw [gateEvents, Crowd.after, List.foldl_append]
    exact (ih (w.next step)).trans (congrArg (Crowd.after · _) (w.crowd_next step))

end AtTheGate

section Jobs

/-- The job of the first visitor, if there is one, comes first. -/
theorem jobs_cons (who : Visitor) (visitors : List Visitor) :
    jobs (who :: visitors) = who.job?.toList ++ jobs visitors := by
  cases who <;> rfl

/-- The jobs of visitors are those of the workers among them. -/
theorem mem_jobs {job : Job} {visitors : List Visitor} :
    job ∈ jobs visitors ↔ .worker job ∈ visitors := by
  rw [jobs, List.mem_filterMap]
  constructor
  · rintro ⟨who, member, same⟩
    cases who with
    | host n => cases same
    | worker other =>
      cases same
      exact member
  · intro member
    exact ⟨.worker job, member, rfl⟩

/-- The job of one visitor and the jobs of the others. -/
theorem jobs_perm {visitors rest : List Visitor} {who : Visitor}
    (perm : visitors.Perm (who :: rest)) (queue : List Job) :
    (queue ++ jobs visitors).Perm (who.job?.toList ++ (queue ++ jobs rest)) := by
  have split : (jobs visitors).Perm (who.job?.toList ++ jobs rest) := by
    rw [← jobs_cons]
    exact perm.filterMap Visitor.job?
  exact (split.append_left queue).trans (List.perm_append_comm_assoc ..)

/-- Someone who waits is one of those at the gate, beside the others. -/
theorem waiting_perm {w : Workshop} {who : Visitor} (waits : who ∈ w.waiting) :
    (w.waiting ++ w.permits).Perm (who :: (w.waiting.erase who ++ w.permits)) :=
  (List.perm_cons_erase waits).append_right w.permits

/-- Someone who has a permit is one of those at the gate, beside the others. -/
theorem permits_perm {w : Workshop} {who : Visitor} (holds : who ∈ w.permits) :
    (w.waiting ++ w.permits).Perm (who :: (w.waiting ++ w.permits.erase who)) :=
  ((List.perm_cons_erase holds).append_left w.waiting).trans List.perm_middle

end Jobs

/-- The optimizer agrees with where its jobs are: some in hand, the others in the queue or with
somebody at the gate. -/
structure Staffed (w : Workshop) (hands : List Job) : Prop where
  consistent : w.optimizer.Consistent (hands ++ (w.optimizer.queue ++ w.underway))
  pending : w.optimizer.pending = (hands ++ (w.optimizer.queue ++ w.underway)).length

namespace Staffed

variable {w later : Workshop} {hands taken : List Job} {job : Job} {who : Visitor}

/-- A new workshop has no jobs. -/
theorem create (program : Program) (settings : Settings) :
    (Workshop.create program settings).Staffed [] where
  consistent := .create program settings
  pending := rfl

/-- Nothing changes at the gate. -/
theorem floor {o : Optimizer} (consistent : o.Consistent (o.queue ++ w.underway))
    (pending : o.pending = (o.queue ++ w.underway).length) :
    ({ w with optimizer := o } : Workshop).Staffed [] := ⟨consistent, pending⟩

/-- Jobs change hands, and nothing else changes. -/
theorem move (staffed : w.Staffed hands) {gate : Gate} {queue : List Job}
    (moved : later.optimizer = { w.optimizer with gate, queue })
    (perm : (hands ++ (w.optimizer.queue ++ w.underway)).Perm
      (taken ++ (later.optimizer.queue ++ later.underway))) : later.Staffed taken := by
  refine ⟨?_, ?_⟩
  · have consistent := staffed.consistent.of_perm perm
    rw [moved] at consistent ⊢
    exact { consistent with }
  · rw [← perm.length_eq, ← staffed.pending, moved]

/-- A job that is given up is in nobody's hands any more. -/
theorem dismiss (staffed : w.Staffed who.job?.toList) : (w.dismiss who).Staffed [] := by
  cases who with
  | host n => exact staffed
  | worker job =>
    have pending : w.optimizer.pending = (w.optimizer.queue ++ w.underway).length + 1 :=
      staffed.pending
    refine ⟨{ staffed.consistent.cancel with }, ?_⟩
    exact congrArg (· - 1) pending

/-- A visitor goes in with the job, waits with it, or gives it up. -/
theorem visit (staffed : w.Staffed who.job?.toList) (patient : Bool) :
    (w.visit who patient).Staffed [] := by
  unfold Workshop.visit
  split
  next inside _ => exact staffed.move rfl (jobs_perm List.perm_middle _).symm
  next =>
    split
    next => exact staffed.move rfl (jobs_perm (.refl _) _).symm
    next => exact staffed.dismiss

/-- Someone who no longer waits has the job in hand. -/
theorem leave (staffed : w.Staffed []) (waits : who ∈ w.waiting) :
    (w.leave who).Staffed who.job?.toList :=
  staffed.move rfl (jobs_perm (waiting_perm waits) _)

/-- Someone who has handed the permit back has the job in hand. -/
theorem giveBack (staffed : w.Staffed []) (holds : who ∈ w.permits) :
    (w.giveBack who).Staffed who.job?.toList :=
  staffed.move rfl (jobs_perm (permits_perm holds) _)

/-- A job that has been taken off the queue is in hand. -/
theorem takeOff (staffed : w.Staffed []) {position : Nat}
    (found : w.optimizer.queue[position]? = some job) : (w.takeOff position).Staffed [job] :=
  staffed.move rfl ((Optimizer.queue_perm found).append_right w.underway)

/-- The job of a worker that has a permit, and the others. -/
theorem hand (staffed : w.Staffed []) (holds : .worker job ∈ w.permits) :
    w.optimizer.Consistent
      (job :: (w.optimizer.queue ++ (w.giveBack (.worker job)).underway)) :=
  staffed.consistent.of_perm (jobs_perm (permits_perm holds) _)

/-- A job that is done has ended, and is in nobody's hands any more. -/
theorem finish (staffed : w.Staffed []) (holds : .worker job ∈ w.permits) :
    (w.finish job).Staffed [] := by
  have ends := w.optimizer.attempt_ends job
  have queue : (w.finish job).optimizer.queue = w.optimizer.queue := ends.queue
  have pending : (w.finish job).optimizer.pending = w.optimizer.pending - 1 :=
    congrArg (· - 1) ends.pending
  have given : w.optimizer.pending =
      (w.optimizer.queue ++ (w.giveBack (.worker job)).underway).length + 1 :=
    (staffed.giveBack holds).pending
  refine ⟨?_, ?_⟩
  · rw [queue]
    exact { (staffed.hand holds).attempt with }
  · rw [pending, given, queue]
    rfl

/-- No permit of a job is left when it has ended, as no other job has its name. -/
theorem not_mem_permits_finish (staffed : w.Staffed []) (holds : .worker job ∈ w.permits) :
    .worker job ∉ (w.finish job).permits := by
  intro still
  have other : job ∈ (w.giveBack (.worker job)).underway :=
    mem_jobs.mpr (List.mem_append_right w.waiting still)
  exact (staffed.hand holds).other_name (List.mem_append_right _ other) rfl

/-- A job that is in the queue has no permit. -/
theorem not_mem_permits_of_queued (staffed : w.Staffed []) (queued : job ∈ w.optimizer.queue) :
    .worker job ∉ w.permits := by
  intro holds
  exact (staffed.hand holds).other_name (List.mem_append_left _ queued) rfl

/-- When no jobs are pending, nobody has a permit for one. -/
theorem not_mem_permits_of_idle (staffed : w.Staffed []) (idle : w.optimizer.isIdle = true)
    (job : Job) : .worker job ∉ w.permits := by
  intro holds
  have pending := staffed.pending
  have out : 0 < w.underway.length :=
    List.length_pos_of_mem (mem_jobs.mpr (List.mem_append_right w.waiting holds))
  rw [Optimizer.isIdle, decide_eq_true_eq] at idle
  rw [List.nil_append, List.length_append] at pending
  omega

/-- A call changes nothing, or it marks a name and puts its job at the end of the queue. -/
theorem next_call (staffed : w.Staffed []) (index : Nat) : (w.next (.call index)).Staffed [] := by
  rw [Workshop.next]
  split
  next f _ =>
    have pending : w.optimizer.pending = (w.optimizer.queue ++ w.underway).length :=
      staffed.pending
    obtain ⟨taken, queue, more⟩ := staffed.consistent.recordCall_jobs index f.name
    refine floor (staffed.consistent.recordCall_append index f.name) ?_
    rw [List.length_append] at pending
    rw [queue, more, List.length_append, List.length_append]
    omega
  next => exact staffed

/-- A worker that takes a job off the queue comes to the gate with it, or gives it up at once when
the optimizer has shut down. -/
theorem next_take (staffed : w.Staffed []) (position : Nat) (patient : Bool) :
    (w.next (.take position patient)).Staffed [] := by
  rw [Workshop.next]
  split
  next job found =>
    have off : (w.takeOff position).Staffed (Visitor.worker job).job?.toList :=
      staffed.takeOff found
    split
    next => exact off.dismiss
    next => exact off.visit patient
  next => exact staffed

/-- The host has no job in hand when it comes to the gate. -/
theorem next_come (staffed : w.Staffed []) (n : Nat) (patient : Bool) :
    (w.next (.come n patient)).Staffed [] := by
  have host : w.Staffed (Visitor.host n).job?.toList := staffed
  exact host.visit patient

/-- Someone who waits at the gate looks at it again, when woken and when the wait is over: the job
is in hand in between. -/
theorem look_again (staffed : w.Staffed []) (who : Visitor) (patient : Bool) :
    (if who ∈ w.waiting then (w.leave who).visit who patient else w).Staffed [] := by
  split
  next waits => exact (staffed.leave waits).visit patient
  next => exact staffed

/-- The permit of the host is for no job. -/
theorem next_handBack (staffed : w.Staffed []) (n : Nat) :
    (w.next (.handBack n)).Staffed [] := by
  rw [Workshop.next]
  split
  next holds => exact staffed.giveBack holds
  next => exact staffed

/-- A worker that has a permit ends its job, and no other. -/
theorem next_conclude (staffed : w.Staffed []) (job : Job) :
    (w.next (.conclude job)).Staffed [] := by
  rw [Workshop.next]
  split
  next holds => exact staffed.finish holds
  next => exact staffed

/-- Switching the optimizer on leaves all jobs where they are. -/
theorem next_enable (staffed : w.Staffed []) : (w.next .enable).Staffed [] := by
  obtain ⟨queue, same⟩ := w.optimizer.enable_jobs
  refine floor ?_ ?_
  · rw [queue]
    exact staffed.consistent.enable
  · rw [same, queue]
    exact staffed.pending

/-- A shutdown leaves all jobs where they are: those who have them end them. -/
theorem next_shutdown (staffed : w.Staffed []) : (w.next .shutdown).Staffed [] := by
  obtain ⟨queue, same⟩ := w.optimizer.shutdown_jobs
  refine floor ?_ ?_
  · rw [queue]
    exact staffed.consistent.shutdown
  · rw [same, queue]
    exact staffed.pending

/-- No step loses a job or makes one up. -/
theorem next (staffed : w.Staffed []) (step : Event) : (w.next step).Staffed [] := by
  cases step with
  | call index => exact staffed.next_call index
  | take position patient => exact staffed.next_take position patient
  | come n patient => exact staffed.next_come n patient
  | wake who => exact staffed.look_again who true
  | expire who => exact staffed.look_again who false
  | handBack n => exact staffed.next_handBack n
  | conclude job => exact staffed.next_conclude job
  | enable => exact staffed.next_enable
  | disable => exact ⟨staffed.consistent.disable, staffed.pending⟩
  | shutdown => exact staffed.next_shutdown

/-- No sequence of steps loses a job or makes one up. -/
theorem after (staffed : w.Staffed []) (steps : List Event) : (w.after steps).Staffed [] := by
  induction steps generalizing w with
  | nil => exact staffed
  | cons step steps ih => exact ih (staffed.next step)

/-- The worker of a job that has a permit gets to the end of the job, whatever comes of it, and with
that the permit is back. -/
theorem conclude (staffed : w.Staffed []) (holds : .worker job ∈ w.permits) :
    let later := w.next (.conclude job)
    (later.optimizer.stateOf job.name = .optimized ∨
        later.optimizer.stateOf job.name = .failed) ∧
      later.permits = w.permits.erase (.worker job) ∧ .worker job ∉ later.permits := by
  intro later
  have finished : later = w.finish job := if_pos holds
  rw [finished]
  exact ⟨(staffed.hand holds).attempt_settles.1, rfl, staffed.not_mem_permits_finish holds⟩

end Staffed

/-- A worker that takes a job all the way at once does what it would do in the workshop if nobody
came between. -/
theorem process_eq {w : Workshop} (staffed : w.Staffed []) {position : Nat} {job : Job}
    (found : w.optimizer.queue[position]? = some job) :
    w.optimizer.process position =
      ((w.next (.take position false)).next (.conclude job)).optimizer := by
  have out : .worker job ∉ w.permits :=
    staffed.not_mem_permits_of_queued (List.mem_of_getElem? found)
  -- A worker that goes away without a permit has nothing to conclude.
  have dismissed : ((w.takeOff position).dismiss (.worker job)).next (.conclude job) =
      (w.takeOff position).dismiss (.worker job) := if_neg out
  cases stopped : w.optimizer.hasShutDown with
  | true =>
    have took : w.next (.take position false) = (w.takeOff position).dismiss (.worker job) := by
      simp only [next, found, stopped, if_true]
    rw [took, dismissed]
    simp [Optimizer.process, Optimizer.work, found, stopped, dismiss, takeOff]
  | false =>
    have took : w.next (.take position false) =
        (w.takeOff position).visit (.worker job) false := by
      simp [next, found, stopped]
    have gate : (w.takeOff position).optimizer.gate = w.optimizer.gate := rfl
    cases acquired : w.optimizer.gate.acquire? with
    | none =>
      have refused : (w.takeOff position).visit (.worker job) false =
          (w.takeOff position).dismiss (.worker job) := by
        simp [visit, gate, acquired]
      rw [took, refused, dismissed]
      simp [Optimizer.process, Optimizer.work, found, stopped, acquired, dismiss, takeOff]
    | some inside =>
      have admitted : ((w.takeOff position).visit (.worker job) false).next (.conclude job) =
          ((w.takeOff position).visit (.worker job) false).finish job := by
        refine if_pos ?_
        simp [visit, gate, acquired]
      rw [took, admitted]
      simp [Optimizer.process, Optimizer.work, found, stopped, acquired, visit, finish, giveBack,
        takeOff]

/-- The slots of a gate are conserved, whatever its capacity is and in whatever order people come,
wait, go, and close it. So are those of an optimizer whose workers go on in any order, and each job
that gets a permit hands it back when it has come to something: the gate has one slot more, no
permit of the job is left, and once the optimizer is idle no job has one. -/
theorem slots_conserved {ι : Type} [DecidableEq ι] (capacity : Nat)
    (events : List (Crowd.Event ι)) (program : Program) (settings : Settings)
    (steps : List Event) :
    let c : Crowd ι := (Crowd.around capacity).after events
    let w := (create program settings).after steps
    c.Keeps capacity ∧ (c.gate.closed = true ↔ .close ∈ events) ∧
    w.crowd.Keeps settings.jobs ∧
    (∀ job, .worker job ∈ w.permits →
      let later := w.next (.conclude job)
      (later.optimizer.stateOf job.name = .optimized ∨
          later.optimizer.stateOf job.name = .failed) ∧
        later.optimizer.gate.available = w.optimizer.gate.available + 1 ∧
        later.permits = w.permits.erase (.worker job) ∧ .worker job ∉ later.permits) ∧
    (w.optimizer.isIdle = true → ∀ job, .worker job ∉ w.permits) ∧
    ∀ position, (w.optimizer.process position).gate = w.optimizer.gate := by
  intro c w
  have crowd : w.crowd =
      (Crowd.around settings.jobs).after ((create program settings).gateEvents steps) :=
    (create program settings).crowd_after steps
  have conserved : w.crowd.Conserved settings.jobs := by
    rw [crowd]
    exact (Crowd.Conserved.around settings.jobs).after _
  have staffed : w.Staffed [] := (Staffed.create program settings).after steps
  refine ⟨((Crowd.Conserved.around capacity).after events).keeps, ?_, conserved.keeps, ?_,
    staffed.not_mem_permits_of_idle, ?_⟩
  · rw [Crowd.closed_after]
    simp [Crowd.around, Gate.make]
  · intro job holds later
    obtain ⟨settled, permits, gone⟩ := staffed.conclude holds
    refine ⟨settled, ?_, permits, gone⟩
    have frees := conserved.keeps.frees (.worker job) holds
    have gate : later.crowd = w.crowd.next (.handBack (.worker job)) :=
      w.crowd_next (.conclude job)
    rw [frees] at gate
    exact congrArg (fun c => c.gate.available) gate
  · have room : w.optimizer.gate.available ≤ w.optimizer.gate.capacity := by
      have limit := conserved.limit
      have slots := conserved.slots
      simp only [Workshop.crowd] at limit slots
      omega
    exact w.optimizer.process_gate room

end Workshop

end HotPath
