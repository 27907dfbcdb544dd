import HotPath.Proofs.Tier.Crossing
import Mathlib.Data.List.Nodup

/-!
# Shutdown

After shutdown only one thing can still happen: a job that was in the queue is given up. So
everything else that the optimizer knows is as it was at the moment of shutdown, and the jobs that
have been given up since, in the order in which that happened (`cancellations`), are with the
jobs that are left exactly those that were in the queue then. `Drains` says so of two states,
`next_drains` of one step, and `shutdown_drains` of any number of them after any history.
-/

namespace HotPath

namespace Optimizer

/-- An optimizer that has been shut down has since given up the jobs in `dropped`, and nothing else
has happened. -/
structure Drains (o later : Optimizer) (dropped : List Job) : Prop where
  hasShutDown : later.hasShutDown = true
  disabled : later.enabled = false
  calls : later.calls = o.calls
  published : later.published = o.published
  failed : later.failed = o.failed
  tally : later.tally = { o.tally with cancelled := o.tally.cancelled + dropped.length }
  queue : o.queue.Perm (dropped ++ later.queue)

namespace Drains

variable {o later : Optimizer} {dropped : List Job}

/-- An optimizer that stays as it is drains nothing. -/
theorem refl (hasShutDown : o.hasShutDown = true) (disabled : o.enabled = false) :
    o.Drains o [] where
  hasShutDown := hasShutDown
  disabled := disabled
  calls := rfl
  published := rfl
  failed := rfl
  tally := rfl
  queue := .refl _

/-- What is drained on the way is drained altogether. -/
theorem trans {last : Optimizer} {more : List Job} (early : o.Drains later dropped)
    (late : later.Drains last more) : o.Drains last (dropped ++ more) where
  hasShutDown := late.hasShutDown
  disabled := late.disabled
  calls := late.calls.trans early.calls
  published := late.published.trans early.published
  failed := late.failed.trans early.failed
  tally := by simp only [late.tally, early.tally, List.length_append, Nat.add_assoc]
  queue := by
    rw [List.append_assoc]
    exact early.queue.trans (late.queue.append_left dropped)

/-- Each job that was in the queue has been given up once or is still there, and no other job has
been given up. -/
theorem count_dropped (drains : o.Drains later dropped) (distinct : o.queue.Nodup) (job : Job) :
    dropped.count job = if job ∈ o.queue ∧ job ∉ later.queue then 1 else 0 := by
  have counts := drains.queue.count_eq job
  rw [distinct.count, List.count_append] at counts
  by_cases left : job ∈ later.queue
  · have here := List.count_pos_iff.mpr left
    rw [if_neg fun gone => gone.2 left]
    split at counts <;> omega
  · rw [List.count_eq_zero.mpr left, Nat.add_zero] at counts
    rw [← counts]
    simp only [left, not_false_eq_true, and_true]

end Drains

end Optimizer

namespace Supervised

/-- The jobs that a sequence of steps gives up, in order. -/
def cancellations (s : Supervised) : List Event → List Job
  | [] => []
  | event :: events => (s.cancelled? event).toList ++ (s.next event).cancellations events

section Stopped

variable {s : Supervised} (hasShutDown : s.optimizer.hasShutDown = true)
  (disabled : s.optimizer.enabled = false)

/-- An event that leaves the number of cancelled jobs alone has cancelled none. -/
theorem cancelled?_eq_none {event : Event}
    (same : (s.next event).optimizer.tally.cancelled = s.optimizer.tally.cancelled) :
    s.cancelled? event = none := by
  rw [cancelled?, same, if_neg (Nat.lt_irrefl _)]

include hasShutDown disabled

/-- A job that is taken off the queue is given up. -/
theorem cancel_drains {event : Event} {position : Nat} {job : Job}
    (found : s.optimizer.queue[position]? = some job) (taken : s.taken? event = some job)
    (left : s.next event = { s with optimizer := (Optimizer.cancel
      { s.optimizer with queue := s.optimizer.queue.eraseIdx position } job).finishJob }) :
    s.optimizer.Drains (s.next event).optimizer (s.cancelled? event).toList := by
  have given : s.cancelled? event = some job := by
    rw [cancelled?, if_pos (by rw [left]; exact Nat.lt_succ_self _), taken]
  rw [given, left]
  exact {
    hasShutDown := hasShutDown
    disabled := disabled
    calls := rfl
    published := rfl
    failed := rfl
    tally := rfl
    queue := Optimizer.queue_perm found }

/-- After shutdown a step gives a job up or changes nothing. -/
theorem next_drains (event : Event) :
    s.optimizer.Drains (s.next event).optimizer (s.cancelled? event).toList := by
  have idle := Optimizer.Drains.refl hasShutDown disabled
  -- All steps but those that take a job off the queue.
  have same {event : Event} (same : (s.next event).optimizer = s.optimizer) :
      s.optimizer.Drains (s.next event).optimizer (s.cancelled? event).toList := by
    rw [cancelled?_eq_none (by rw [same]), same]
    exact idle
  cases event with
  | call index =>
    refine same ?_
    unfold next
    dsimp only
    split
    next => simp [Optimizer.recordCall, disabled]
    next => rfl
  | work position =>
    cases found : s.optimizer.queue[position]? with
    | none => exact same (by simp [next, Optimizer.process, found])
    | some job =>
      refine cancel_drains hasShutDown disabled found found ?_
      simp [next, Optimizer.process, Optimizer.work, found, hasShutDown]
  | expire position =>
    cases found : s.optimizer.queue[position]? with
    | none => exact same (by simp [next, Optimizer.expire, found])
    | some job =>
      refine cancel_drains hasShutDown disabled found found ?_
      simp [next, Optimizer.expire, found]
  | hold =>
    rw [cancelled?_eq_none (by rfl)]
    exact { idle with }
  | handBack =>
    rw [cancelled?_eq_none (by rfl)]
    exact { idle with }
  | enable => exact same (by simp [next, Optimizer.enable, hasShutDown])
  | disable =>
    rw [cancelled?_eq_none (by rfl)]
    exact { idle with disabled := rfl }
  | shutdown => exact same (by simp [next, Optimizer.shutdown, hasShutDown])

/-- After a shutdown all that happens is that jobs are cancelled. -/
theorem after_drains (events : List Event) :
    s.optimizer.Drains (s.after events).optimizer (s.cancellations events) := by
  induction events generalizing s with
  | nil => exact .refl hasShutDown disabled
  | cons event events ih =>
    have first := next_drains hasShutDown disabled event
    exact first.trans (ih first.hasShutDown first.disabled)

/-- Working on the front of the queue as often as there are jobs empties it. -/
theorem after_work_front (length : Nat) (left : s.optimizer.queue.length = length) :
    (s.after (List.replicate length (.work 0))).optimizer.queue = [] := by
  induction length generalizing s with
  | zero => exact List.eq_nil_of_length_eq_zero left
  | succ length ih =>
    have first := next_drains hasShutDown disabled (.work 0)
    refine ih first.hasShutDown first.disabled ?_
    match queue : s.optimizer.queue with
    | [] => simp [queue] at left
    | job :: rest =>
      rw [queue, List.length_cons] at left
      simp [next, Optimizer.process, Optimizer.work, Optimizer.cancel, Optimizer.unmark,
        Optimizer.finishJob, queue, hasShutDown]
      omega

end Stopped

/-- The moment of shutdown: nothing is given up yet. -/
theorem shutdown_drains_nothing {s : Supervised} (sound : s.optimizer.Sound) :
    s.optimizer.Drains (s.next .shutdown).optimizer [] := by
  simp only [next, Optimizer.shutdown]
  split
  next stopped => exact .refl stopped (sound.consistent.stopped stopped)
  next =>
    exact {
      hasShutDown := rfl
      disabled := rfl
      calls := rfl
      published := rfl
      failed := rfl
      tally := rfl
      queue := .refl _ }

/-- Shutdown is final, and it drains the queue. Whatever happens before and after it, no call is
counted any more; the counts of calls, the tally of jobs taken on, done and failed, the fusions,
and all versions and failures stay as they were at the moment of shutdown. Each job that was in the
queue then is given up once or is still there, and no other job is given up. Once the queue is
empty, which working on its front brings about, no name is in flight, and all jobs have ended. -/
theorem shutdown_final (program : Program) (settings : Settings) (events more : List Event) :
    let s := (create program settings).after events
    let stopped := s.next .shutdown
    let later := stopped.after more
    later.optimizer.isEnabled = false ∧
    (∀ name, later.optimizer.callCount name = s.optimizer.callCount name) ∧
    later.optimizer.published = s.optimizer.published ∧
    later.optimizer.failed = s.optimizer.failed ∧
    later.optimizer.tally = { s.optimizer.tally with
      cancelled := s.optimizer.tally.cancelled + (stopped.cancellations more).length } ∧
    (∀ job, (stopped.cancellations more).count job =
      if job ∈ s.optimizer.queue ∧ job ∉ later.optimizer.queue then 1 else 0) ∧
    (later.after (.replicate later.optimizer.queue.length (.work 0))).optimizer.queue = [] ∧
    (later.optimizer.queue = [] →
      (∀ name, later.optimizer.stateOf name ≠ .inFlight) ∧ later.optimizer.isIdle = true ∧
        later.optimizer.tally.finished = later.optimizer.tally.admitted) := by
  intro s stopped later
  have sound : s.optimizer.Sound := after_sound (.create program settings) events
  have laterSound : later.optimizer.Sound := after_sound (next_sound sound .shutdown) more
  have shut := shutdown_drains_nothing sound
  have drains : s.optimizer.Drains later.optimizer (stopped.cancellations more) :=
    shut.trans (after_drains shut.hasShutDown shut.disabled more)
  have distinct : s.optimizer.queue.Nodup := sound.consistent.distinct.of_map
  refine ⟨?_, ?_, drains.published, drains.failed, drains.tally, drains.count_dropped distinct,
    after_work_front drains.hasShutDown drains.disabled _ rfl, ?_⟩
  · rw [laterSound.isEnabled_eq, drains.disabled]
  · intro name
    rw [Optimizer.callCount, drains.calls]
    rfl
  · intro drained
    have accounted := laterSound.accounted
    refine ⟨?_, ?_, ?_⟩
    · intro name inFlight
      have marked := (laterSound.isInFlight_iff_mem name).mp (Optimizer.isInFlight_of_stateOf inFlight)
      rw [drained] at marked
      cases marked
    · rw [Optimizer.isIdle, accounted.pending, drained]
      rfl
    · rw [accounted.admitted, drained]
      rfl

/-- One job is in the queue at shutdown, and a worker finds it there. -/
theorem shutdown_final_countdownProgram :
    let stopped := (create Machine.countdownProgram { threshold := 1 }).after [.call 0, .shutdown]
    let later := stopped.after [.enable, .call 0, .work 0]
    stopped.cancellations [.enable, .call 0, .work 0] = [⟨"main", 0⟩] ∧
      later.optimizer.queue = [] ∧ later.optimizer.isIdle = true ∧
      later.optimizer.tally.finished = later.optimizer.tally.admitted := by
  intro stopped later
  have final := shutdown_final Machine.countdownProgram { threshold := 1 } [.call 0]
    [.enable, .call 0, .work 0]
  have drained : later.optimizer.queue = [] := by decide +kernel
  obtain ⟨_, idle, finished⟩ := final.2.2.2.2.2.2.2 drained
  exact ⟨by decide +kernel, drained, idle, finished⟩

end Supervised

end HotPath
