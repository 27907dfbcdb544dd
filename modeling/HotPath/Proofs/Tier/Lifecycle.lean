import HotPath.Tier.Schedule

/-!
# The life of a name under the optimizer

An `Event` is one atomic step of the optimizer or of those around it, and `after`
carries out any sequence of them. `Consistent` is the invariant: it ties the marked
names, the failed names and the published versions to the jobs that have not
ended, and the tally to all of them. While a worker is at a job, the job has left
the queue and has not ended, so the invariant is about a list of jobs that
need not be the queue.

`Extends` is the other half: whatever happens, published versions and failures stay.
-/

namespace HotPath

namespace Optimizer

/-- The optimizer agrees with a list of the jobs that have not ended. -/
structure Consistent (o : Optimizer) (unfinished : List Job) : Prop where
  marked : o.inFlight.Perm unfinished
  distinct : (unfinished.map Job.name).Nodup
  unpublished : ∀ job ∈ unfinished, o.named? job.name = none
  unfailed : ∀ job ∈ unfinished, job.name ∉ o.failed
  exclusive : ∀ name ∈ o.failed, o.named? name = none
  publishedDistinct : (o.published.map fun p => p.job.name).Nodup
  failedDistinct : o.failed.Nodup
  admitted : o.tally.admitted =
    o.tally.completed + o.tally.failed + o.tally.cancelled + unfinished.length
  completed : o.tally.completed = o.published.length
  failures : o.tally.failed = o.failed.length
  stopped : o.hasShutDown = true → o.enabled = false

/-- There is no version for a name that no job of those published has. -/
theorem named?_eq_none_iff {o : Optimizer} {name : String} :
    o.named? name = none ↔ ∀ p ∈ o.published, p.job.name ≠ name := by
  simp [named?]

/-- A name has failed if it is noted. -/
theorem hasFailed_iff {o : Optimizer} {name : String} :
    o.hasFailed name = true ↔ name ∈ o.failed := by
  simp [hasFailed]

/-- A name is marked by a job of that name. -/
theorem isInFlight_iff {o : Optimizer} {name : String} :
    o.isInFlight name = true ↔ ∃ job ∈ o.inFlight, job.name = name := by
  simp [isInFlight]

/-- What a call does, and when: it is ignored, or it is counted. When it is counted, a job is taken
on if it makes the name hot and no job is marked for it. -/
theorem recordCall_split (o : Optimizer) (index : Nat) (name : String) :
    let counted : Optimizer := { o with calls := o.calls.bump name }
    (o.enabled = false ∨ o.isSettled name = true) ∧ o.recordCall index name = o ∨
      (o.enabled = true ∧ o.isSettled name = false) ∧
        ((o.isInFlight name = true ∨ counted.callCount name < o.settings.threshold) ∧
            o.recordCall index name = counted ∨
          (o.isInFlight name = false ∧ o.settings.threshold ≤ counted.callCount name) ∧
            o.recordCall index name = counted.submit ⟨name, index⟩) := by
  intro counted
  by_cases ignored : (!o.enabled || o.isSettled name) = true
  · refine .inl ⟨?_, if_pos ignored⟩
    simpa using ignored
  have counts : o.recordCall index name =
      if counted.callCount name < o.settings.threshold || counted.isInFlight name then counted
      else counted.submit ⟨name, index⟩ := if_neg ignored
  rw [Bool.or_eq_true, not_or, Bool.not_eq_true, Bool.not_eq_true, Bool.not_eq_false'] at ignored
  refine .inr ⟨ignored, ?_⟩
  by_cases quiet : (decide (counted.callCount name < o.settings.threshold) ||
      counted.isInFlight name) = true
  · refine .inl ⟨?_, counts.trans (if_pos quiet)⟩
    rw [Bool.or_eq_true, decide_eq_true_iff] at quiet
    exact quiet.symm
  · refine .inr ⟨?_, counts.trans (if_neg quiet)⟩
    rw [Bool.or_eq_true, not_or, decide_eq_true_iff, Nat.not_lt, Bool.not_eq_true] at quiet
    exact quiet.symm

/-- What a call does: nothing, or it is counted, or it is counted and a job is taken on. -/
theorem recordCall_cases (o : Optimizer) (index : Nat) (name : String) :
    o.recordCall index name = o ∨
      o.recordCall index name = { o with calls := o.calls.bump name } ∨
      o.enabled = true ∧ o.isSettled name = false ∧ o.isInFlight name = false ∧
        o.recordCall index name = { o with calls := o.calls.bump name }.submit ⟨name, index⟩ := by
  rcases o.recordCall_split index name with ⟨_, same⟩ | ⟨counts, quiet | hot⟩
  · exact .inl same
  · exact .inr (.inl quiet.2)
  · exact .inr (.inr ⟨counts.1, counts.2, hot.1.1, hot.2⟩)

/-- What taking a job on does while workers are there. -/
theorem submit_eq {o : Optimizer} (running : o.hasShutDown = false) (job : Job) :
    o.submit job = { o with
      inFlight := job :: o.inFlight
      tally := { o.tally with admitted := o.tally.admitted + 1 }
      pending := o.pending + 1
      queue := o.queue ++ [job] } := by
  simp [submit, running]

/-- What comes of a job: a version, or nothing to publish. -/
theorem attempt_cases (o : Optimizer) (job : Job) :
    o.attempt job = o.fail job ∨
      ∃ f version, o.program.functions[job.index]? = some f ∧ f.fuse o.program = .ok version ∧
        o.attempt job = o.publish job version := by
  unfold attempt
  split
  next => exact .inl rfl
  next f found =>
    split
    next version fused =>
      split
      next => exact .inr ⟨f, version, found, fused, rfl⟩
      next => exact .inl rfl
    next => exact .inl rfl

/-- What a worker does with a job: it gives the job up, or attempts it behind the gate. -/
theorem work_cases (o : Optimizer) (job : Job) :
    o.work job = o.cancel job ∨
      ∃ inside outside, o.work job = { ({ o with gate := inside } : Optimizer).attempt job with
        gate := outside } := by
  unfold work
  split
  next => exact .inl rfl
  next =>
    split
    next => exact .inl rfl
    next gate _ => exact .inr ⟨gate, _, rfl⟩

/-- The queue is the job at a position and what is left without it. -/
theorem queue_perm {o : Optimizer} {position : Nat} {job : Job}
    (found : o.queue[position]? = some job) :
    o.queue.Perm (job :: o.queue.eraseIdx position) := by
  obtain ⟨inside, rfl⟩ := List.getElem?_eq_some_iff.mp found
  have split := List.take_append_drop position o.queue
  rw [List.drop_eq_getElem_cons inside] at split
  rw [List.eraseIdx_eq_take_drop_succ]
  conv => lhs; rw [← split]
  exact List.perm_middle

/-- What taking a job off the queue leads to. -/
theorem process_cases (o : Optimizer) (position : Nat) :
    o.process position = o ∨
      ∃ job rest, o.queue.Perm (job :: rest) ∧
        o.process position = (({ o with queue := rest } : Optimizer).work job).finishJob := by
  cases found : o.queue[position]? with
  | none =>
    refine .inl ?_
    simp [process, found]
  | some job => exact .inr ⟨job, _, queue_perm found, by simp [process, found]⟩

/-- Give up a job whose wait at the gate has ended without a permit. -/
def expire (o : Optimizer) (position : Nat) : Optimizer :=
  match o.queue[position]? with
  | some job => (({ o with queue := o.queue.eraseIdx position }).cancel job).finishJob
  | none => o

/-- What the end of a wait leads to: nothing, or the job is taken off the queue and given up. -/
theorem expire_cases (o : Optimizer) (position : Nat) :
    o.expire position = o ∨
      ∃ job rest, o.queue.Perm (job :: rest) ∧
        o.expire position = (({ o with queue := rest } : Optimizer).cancel job).finishJob := by
  cases found : o.queue[position]? with
  | none =>
    refine .inl ?_
    simp [expire, found]
  | some job => exact .inr ⟨job, _, queue_perm found, by simp [expire, found]⟩

/-- What is published or has failed stays so. -/
structure Extends (o later : Optimizer) : Prop where
  program : later.program = o.program
  published : o.published <+: later.published
  failed : ∀ name ∈ o.failed, name ∈ later.failed

namespace Extends

/-- Nothing is lost when nothing happens. -/
theorem refl (o : Optimizer) : o.Extends o where
  program := rfl
  published := List.prefix_rfl
  failed := by simp

/-- What stays from the first to the second and from there to the third stays altogether. -/
theorem trans {first second third : Optimizer} (early : first.Extends second)
    (late : second.Extends third) : first.Extends third where
  program := late.program.trans early.program
  published := early.published.trans late.published
  failed := by
    intro name member
    exact late.failed name (early.failed name member)

/-- A version on offer stays on offer. -/
theorem named? {o later : Optimizer} (extension : o.Extends later) {name : String} {f : Function}
    (found : o.named? name = some f) : later.named? name = some f := by
  obtain ⟨more, whole⟩ := extension.published
  unfold Optimizer.named? at found ⊢
  rw [Option.map_eq_some_iff] at found
  obtain ⟨p, first, version⟩ := found
  rw [← whole, List.find?_append, first]
  exact congrArg some version

/-- A name that is settled stays settled. -/
theorem isSettled {o later : Optimizer} (extension : o.Extends later) {name : String}
    (settled : o.isSettled name = true) : later.isSettled name = true := by
  unfold Optimizer.isSettled at settled ⊢
  rw [Bool.or_eq_true] at settled ⊢
  rcases settled with published | failed
  · obtain ⟨f, found⟩ := Option.isSome_iff_exists.mp published
    rw [extension.named? found]
    exact .inl rfl
  · exact .inr (hasFailed_iff.mpr (extension.failed name (hasFailed_iff.mp failed)))

end Extends

/-- Nothing else changes when a job ends. -/
structure Ends (o later : Optimizer) : Prop extends Extends o later where
  queue : later.queue = o.queue
  pending : later.pending = o.pending
  admitted : later.tally.admitted = o.tally.admitted

/-- A job that is given up ends, and nothing is published. -/
theorem cancel_ends (o : Optimizer) (job : Job) : o.Ends (o.cancel job) where
  toExtends := ⟨rfl, List.prefix_rfl, by simp [cancel, unmark]⟩
  queue := rfl
  pending := rfl
  admitted := rfl

/-- A job that fails ends, and its name is among those that have failed. -/
theorem fail_ends (o : Optimizer) (job : Job) : o.Ends (o.fail job) where
  toExtends := by
    refine ⟨rfl, List.prefix_rfl, ?_⟩
    intro name member
    simp only [fail, unmark]
    split
    next => exact member
    next => exact List.mem_cons_of_mem _ member
  queue := rfl
  pending := rfl
  admitted := rfl

/-- A job whose version is published ends, with the versions before it left where they are. -/
theorem publish_ends (o : Optimizer) (job : Job) (version : Fusion) :
    o.Ends (o.publish job version) := by
  unfold publish
  split
  next => exact ⟨⟨rfl, List.prefix_rfl, by simp [unmark]⟩, rfl, rfl, rfl⟩
  next => exact ⟨⟨rfl, List.prefix_append _ _, by simp [unmark]⟩, rfl, rfl, rfl⟩

/-- Whatever an attempt comes to, the job ends. -/
theorem attempt_ends (o : Optimizer) (job : Job) : o.Ends (o.attempt job) := by
  rcases o.attempt_cases job with failed | ⟨_, version, _, _, published⟩
  · rw [failed]
    exact o.fail_ends job
  · rw [published]
    exact o.publish_ends job version

/-- Whatever a worker does with a job, the job ends. -/
theorem work_ends (o : Optimizer) (job : Job) : o.Ends (o.work job) := by
  rcases o.work_cases job with cancelled | ⟨inside, outside, attempted⟩
  · rw [cancelled]
    exact o.cancel_ends job
  · rw [attempted]
    exact { attempt_ends { o with gate := inside } job with }

namespace Consistent

variable {o : Optimizer} {unfinished rest : List Job} {job : Job}

/-- A new optimizer has no jobs, no versions and no failures. -/
theorem create (program : Program) (settings : Settings) :
    (Optimizer.create program settings).Consistent [] where
  marked := .nil
  distinct := .nil
  unpublished := by simp
  unfailed := by simp
  exclusive := by simp [Optimizer.create]
  publishedDistinct := .nil
  failedDistinct := .nil
  admitted := rfl
  completed := rfl
  failures := rfl
  stopped := by simp [Optimizer.create]

/-- The order of the jobs does not matter. -/
theorem of_perm (consistent : o.Consistent unfinished) (perm : unfinished.Perm rest) :
    o.Consistent rest :=
  { consistent with
    marked := consistent.marked.trans perm
    distinct := (perm.map Job.name).nodup_iff.mp consistent.distinct
    unpublished := by
      intro job member
      exact consistent.unpublished job (perm.mem_iff.mpr member)
    unfailed := by
      intro job member
      exact consistent.unfailed job (perm.mem_iff.mpr member)
    admitted := by rw [consistent.admitted, perm.length_eq] }

/-- No other job has the name of this one. -/
theorem other_name (consistent : o.Consistent (job :: rest)) {other : Job} (member : other ∈ rest) :
    other.name ≠ job.name := by
  have distinct := consistent.distinct
  rw [List.map_cons, List.nodup_cons] at distinct
  intro same
  exact distinct.1 (same ▸ List.mem_map_of_mem member)

/-- Freeing the name of a job leaves exactly the other jobs marked. -/
theorem unmark_perm (consistent : o.Consistent (job :: rest)) :
    (o.unmark job.name).inFlight.Perm rest := by
  have filtered := consistent.marked.filter fun other => other.name ≠ job.name
  have kept : (job :: rest).filter (fun other => other.name ≠ job.name) = rest := by
    rw [List.filter_cons_of_neg (by simp), List.filter_eq_self]
    intro other member
    simpa using consistent.other_name member
  rwa [kept] at filtered

/-- The jobs that are left have different names. -/
theorem distinct_rest (consistent : o.Consistent (job :: rest)) : (rest.map Job.name).Nodup :=
  (List.nodup_cons.mp consistent.distinct).2

/-- Giving up the first job leaves the others unfinished. -/
theorem cancel (consistent : o.Consistent (job :: rest)) : (o.cancel job).Consistent rest where
  marked := consistent.unmark_perm
  distinct := consistent.distinct_rest
  unpublished := by
    intro other member
    exact consistent.unpublished other (List.mem_cons_of_mem _ member)
  unfailed := by
    intro other member
    exact consistent.unfailed other (List.mem_cons_of_mem _ member)
  exclusive := consistent.exclusive
  publishedDistinct := consistent.publishedDistinct
  failedDistinct := consistent.failedDistinct
  admitted := by
    have admitted := consistent.admitted
    rw [List.length_cons] at admitted
    simp only [Optimizer.cancel, unmark]
    omega
  completed := consistent.completed
  failures := consistent.failures
  stopped := consistent.stopped

/-- A job that has not ended is the first to fail under its name, which is noted once. -/
theorem failed_fail (consistent : o.Consistent (job :: rest)) :
    (o.fail job).failed = job.name :: o.failed := by
  have fresh : o.hasFailed job.name = false := by
    rw [Bool.eq_false_iff, ne_eq, hasFailed_iff]
    exact consistent.unfailed job List.mem_cons_self
  simp [Optimizer.fail, unmark, fresh]

/-- Failing the first job leaves the others unfinished. -/
theorem fail (consistent : o.Consistent (job :: rest)) : (o.fail job).Consistent rest := by
  have noted := consistent.failed_fail
  constructor
  case marked => exact consistent.unmark_perm
  case distinct => exact consistent.distinct_rest
  case unpublished =>
    intro other member
    exact consistent.unpublished other (List.mem_cons_of_mem _ member)
  case unfailed =>
    intro other member
    rw [noted, List.mem_cons, not_or]
    exact ⟨consistent.other_name member,
      consistent.unfailed other (List.mem_cons_of_mem _ member)⟩
  case exclusive =>
    intro name member
    rw [noted] at member
    rcases List.mem_cons.mp member with rfl | older
    · exact consistent.unpublished job List.mem_cons_self
    · exact consistent.exclusive name older
  case publishedDistinct => exact consistent.publishedDistinct
  case failedDistinct =>
    rw [noted]
    exact List.nodup_cons.mpr
      ⟨consistent.unfailed job List.mem_cons_self, consistent.failedDistinct⟩
  case admitted =>
    have admitted := consistent.admitted
    rw [List.length_cons] at admitted
    simp only [Optimizer.fail, unmark]
    omega
  case completed => exact consistent.completed
  case failures =>
    have failures := consistent.failures
    rw [noted, List.length_cons, ← failures]
    rfl
  case stopped => exact consistent.stopped

/-- A job that has not ended is the first to publish under its name. Its version goes behind those
on offer, the tally counts it with its fusions, and the name is free again. -/
theorem publish_eq (consistent : o.Consistent (job :: rest)) (version : Fusion) :
    o.publish job version = ({ o with
      published := o.published ++ [⟨job, version⟩]
      tally := { o.tally with
        completed := o.tally.completed + 1
        fusions := o.tally.fusions + version.count } } : Optimizer).unmark job.name := by
  have fresh : o.named? job.name = none := consistent.unpublished job List.mem_cons_self
  simp [Optimizer.publish, fresh]

/-- The version of a job that has not ended becomes the last one on offer. -/
theorem published_publish (consistent : o.Consistent (job :: rest)) (version : Fusion) :
    (o.publish job version).published = o.published ++ [⟨job, version⟩] := by
  rw [consistent.publish_eq version]
  rfl

/-- The version of a job is under no name but the job's own. -/
theorem unpublished_publish (consistent : o.Consistent (job :: rest)) (version : Fusion)
    {name : String} (different : name ≠ job.name) (unpublished : o.named? name = none) :
    (o.publish job version).named? name = none := by
  rw [named?_eq_none_iff] at unpublished ⊢
  intro p member
  rw [consistent.published_publish version, List.mem_append, List.mem_singleton] at member
  rcases member with older | rfl
  · exact unpublished p older
  · exact different.symm

/-- Versions keep names of their own: nothing was on offer under the name of a job that has not
ended. -/
theorem publishedDistinct_publish (consistent : o.Consistent (job :: rest)) (version : Fusion) :
    ((o.publish job version).published.map fun p => p.job.name).Nodup := by
  have fresh : o.named? job.name = none := consistent.unpublished job List.mem_cons_self
  rw [consistent.published_publish version, List.map_append, List.nodup_append]
  refine ⟨consistent.publishedDistinct, by simp, ?_⟩
  intro name member other singleton
  obtain ⟨p, older, rfl⟩ := List.mem_map.mp member
  rw [List.map_singleton, List.mem_singleton] at singleton
  rw [singleton]
  exact named?_eq_none_iff.mp fresh p older

/-- A name that has failed stays without a version, as the job that publishes has not failed. -/
theorem exclusive_publish (consistent : o.Consistent (job :: rest)) (version : Fusion)
    {name : String} (failed : name ∈ o.failed) : (o.publish job version).named? name = none := by
  refine consistent.unpublished_publish version ?_ (consistent.exclusive name failed)
  rintro rfl
  exact consistent.unfailed job List.mem_cons_self failed

/-- Publishing the version of the first job leaves the others unfinished. -/
theorem publish (consistent : o.Consistent (job :: rest)) (version : Fusion) :
    (o.publish job version).Consistent rest := by
  have same := consistent.publish_eq version
  have admitted := consistent.admitted
  have completed := consistent.completed
  rw [List.length_cons] at admitted
  constructor
  case marked =>
    rw [same]
    exact consistent.unmark_perm
  case distinct => exact consistent.distinct_rest
  case unpublished =>
    intro other member
    exact consistent.unpublished_publish version (consistent.other_name member)
      (consistent.unpublished other (List.mem_cons_of_mem _ member))
  case unfailed =>
    intro other member
    rw [same]
    exact consistent.unfailed other (List.mem_cons_of_mem _ member)
  case exclusive =>
    intro name failed
    rw [same] at failed
    exact consistent.exclusive_publish version failed
  case publishedDistinct => exact consistent.publishedDistinct_publish version
  case failedDistinct =>
    rw [same]
    exact consistent.failedDistinct
  case admitted =>
    rw [same]
    simp only [unmark]
    omega
  case completed =>
    rw [same]
    simp only [unmark, List.length_append, List.length_singleton]
    omega
  case failures =>
    rw [same]
    exact consistent.failures
  case stopped =>
    rw [same]
    exact consistent.stopped

/-- However an attempt at the first job turns out, the others are left unfinished. -/
theorem attempt (consistent : o.Consistent (job :: rest)) : (o.attempt job).Consistent rest := by
  rcases o.attempt_cases job with failed | ⟨_, version, _, _, published⟩
  · rw [failed]
    exact consistent.fail
  · rw [published]
    exact consistent.publish version

/-- The gate has no part in it. -/
theorem withGate (consistent : o.Consistent unfinished) (gate : Gate) :
    ({ o with gate } : Optimizer).Consistent unfinished :=
  { consistent with }

/-- Whatever comes of a job, it has ended. -/
theorem work (consistent : o.Consistent (job :: rest)) : (o.work job).Consistent rest := by
  rcases o.work_cases job with cancelled | ⟨inside, outside, attempted⟩
  · rw [cancelled]
    exact consistent.cancel
  · rw [attempted]
    exact ((consistent.withGate inside).attempt).withGate outside

/-- Taking a job on for a name that is neither settled nor marked. -/
theorem submit_cons (consistent : o.Consistent unfinished) (running : o.hasShutDown = false)
    (unsettled : o.isSettled job.name = false) (unmarked : o.isInFlight job.name = false) :
    (o.submit job).Consistent (job :: unfinished) := by
  rw [isSettled, Bool.or_eq_false_iff, Option.isSome_eq_false_iff, Option.isNone_iff_eq_none]
    at unsettled
  obtain ⟨unpublished, unfailed⟩ := unsettled
  have absent : job.name ∉ o.failed := by
    rw [← hasFailed_iff, unfailed]
    exact Bool.false_ne_true
  have free : job.name ∉ unfinished.map Job.name := by
    intro member
    obtain ⟨other, taken, same⟩ := List.mem_map.mp member
    have marked := isInFlight_iff.mpr ⟨other, consistent.marked.mem_iff.mpr taken, same⟩
    rw [unmarked] at marked
    exact Bool.false_ne_true marked
  rw [submit_eq running]
  exact { consistent with
    marked := consistent.marked.cons job
    distinct := List.nodup_cons.mpr ⟨free, consistent.distinct⟩
    unpublished := by
      rw [List.forall_mem_cons]
      exact ⟨unpublished, consistent.unpublished⟩
    unfailed := by
      rw [List.forall_mem_cons]
      exact ⟨absent, consistent.unfailed⟩
    admitted := by
      have admitted := consistent.admitted
      simp only [List.length_cons]
      omega }

/-- While calls are counted, the optimizer has not been shut down. -/
theorem running (consistent : o.Consistent unfinished) (enabled : o.enabled = true) :
    o.hasShutDown = false := by
  cases stopped : o.hasShutDown with
  | false => rfl
  | true =>
    rw [consistent.stopped stopped] at enabled
    cases enabled

/-- A call keeps the invariant, whether it is counted and a job is taken on or not. The jobs that
have left the queue are not affected. -/
theorem recordCall_append {underway : List Job} (consistent : o.Consistent (o.queue ++ underway))
    (index : Nat) (name : String) :
    (o.recordCall index name).Consistent ((o.recordCall index name).queue ++ underway) := by
  have bumped : ({ o with calls := o.calls.bump name } : Optimizer).Consistent
      (o.queue ++ underway) := { consistent with }
  rcases o.recordCall_cases index name with same | counted | ⟨enabled, unsettled, free, admitted⟩
  · rw [same]
    exact consistent
  · rw [counted]
    exact bumped
  · have running : ({ o with calls := o.calls.bump name } : Optimizer).hasShutDown = false :=
      consistent.running enabled
    have taken : (({ o with calls := o.calls.bump name } :
        Optimizer).submit ⟨name, index⟩).Consistent
        (⟨name, index⟩ :: (o.queue ++ underway)) := bumped.submit_cons running unsettled free
    rw [admitted]
    refine taken.of_perm ?_
    rw [submit_eq running, List.append_assoc]
    exact List.perm_middle.symm

/-- A call may put a job at the end of the queue, and the queue are the unfinished jobs still. -/
theorem recordCall (consistent : o.Consistent o.queue) (index : Nat) (name : String) :
    (o.recordCall index name).Consistent (o.recordCall index name).queue := by
  have alone : o.Consistent (o.queue ++ []) := by rwa [List.append_nil]
  have called := alone.recordCall_append index name
  rwa [List.append_nil] at called

/-- The jobs that a call gives rise to join the queue. -/
theorem recordCall_jobs (consistent : o.Consistent unfinished) (index : Nat) (name : String) :
    ∃ taken, (o.recordCall index name).queue = o.queue ++ taken ∧
      (o.recordCall index name).pending = o.pending + taken.length := by
  rcases o.recordCall_cases index name with same | counted | ⟨enabled, _, _, admitted⟩
  · exact ⟨[], by simp [same]⟩
  · exact ⟨[], by simp [counted]⟩
  · have running : ({ o with calls := o.calls.bump name } : Optimizer).hasShutDown = false :=
      consistent.running enabled
    refine ⟨[⟨name, index⟩], ?_⟩
    rw [admitted, submit_eq running]
    exact ⟨rfl, rfl⟩

/-- Switching the optimizer on changes no job. -/
theorem enable (consistent : o.Consistent unfinished) : o.enable.Consistent unfinished := by
  unfold Optimizer.enable
  split
  next => exact consistent
  next running => exact { consistent with stopped := fun stopped => absurd stopped running }

/-- Switching the optimizer off changes no job. -/
theorem disable (consistent : o.Consistent unfinished) : o.disable.Consistent unfinished :=
  { consistent with stopped := fun _ => rfl }

/-- A shutdown changes no job. -/
theorem shutdown (consistent : o.Consistent unfinished) : o.shutdown.Consistent unfinished := by
  unfold Optimizer.shutdown
  split
  next => exact consistent
  next => exact { consistent with stopped := fun _ => rfl }

end Consistent

/-- Switching on leaves the queue and the number of pending jobs alone. -/
theorem enable_jobs (o : Optimizer) :
    o.enable.queue = o.queue ∧ o.enable.pending = o.pending := by
  unfold enable
  split <;> exact ⟨rfl, rfl⟩

/-- A shutdown leaves the queue and the number of pending jobs alone. -/
theorem shutdown_jobs (o : Optimizer) :
    o.shutdown.queue = o.queue ∧ o.shutdown.pending = o.pending := by
  unfold shutdown
  split <;> exact ⟨rfl, rfl⟩

/-- The invariant between two steps: the jobs that have not ended are those of the queue. -/
structure Sound (o : Optimizer) : Prop where
  consistent : o.Consistent o.queue
  pending : o.pending = o.queue.length

/-- Where every name stands and what the tally says, in terms of the jobs that have not ended. -/
structure Accounted (o : Optimizer) : Prop where
  exclusive : ∀ name,
    ¬ (o.isInFlight name ∧ o.hasFailed name) ∧
    ¬ (o.isInFlight name ∧ (o.named? name).isSome) ∧
    ¬ (o.hasFailed name ∧ (o.named? name).isSome)
  marked : ∀ name, o.isInFlight name ↔ (o.queue.filter fun job => job.name = name).length = 1
  single : ∀ name, (o.queue.filter fun job => job.name = name).length ≤ 1
  admitted : o.tally.admitted = o.tally.finished + o.queue.length
  completed : o.tally.completed = o.published.length
  /-- Every name is published once. -/
  published : (o.published.map fun p => p.job.name).Nodup
  failed : o.tally.failed = o.failed.length
  failures : o.failed.Nodup
  pending : o.pending = o.queue.length
  /-- No worker finds a version under the name of its job. -/
  publishes : ∀ job ∈ o.queue, ∀ version,
    (o.publish job version).published = o.published ++ [⟨job, version⟩]

namespace Sound

variable {o : Optimizer}

/-- A new optimizer is sound. -/
theorem create (program : Program) (settings : Settings) :
    (Optimizer.create program settings).Sound :=
  ⟨.create program settings, rfl⟩

/-- A job has been taken off the queue and has ended. -/
theorem finish {job : Job} {rest : List Job} {later : Optimizer} (sound : o.Sound)
    (perm : o.queue.Perm (job :: rest)) (ends : Ends { o with queue := rest } later)
    (consistent : later.Consistent rest) : later.finishJob.Sound where
  consistent := by
    have queue : later.queue = rest := ends.queue
    have left : later.finishJob.queue = rest := queue
    rw [left]
    exact { consistent with }
  pending := by
    have queue : later.queue = rest := ends.queue
    have pending : later.pending = o.pending := ends.pending
    have taken := perm.length_eq
    rw [List.length_cons] at taken
    simp only [finishJob, queue, pending, sound.pending]
    omega

/-- A job that a worker takes off the queue has not ended. -/
theorem takeOff {job : Job} {rest : List Job} (sound : o.Sound)
    (perm : o.queue.Perm (job :: rest)) :
    ({ o with queue := rest } : Optimizer).Consistent (job :: rest) :=
  { sound.consistent.of_perm perm with }

/-- A worker may take a job from any place of the queue. -/
theorem process (sound : o.Sound) (position : Nat) : (o.process position).Sound := by
  rcases o.process_cases position with same | ⟨job, rest, perm, worked⟩
  · rw [same]
    exact sound
  · rw [worked]
    exact sound.finish perm (work_ends _ job) (sound.takeOff perm).work

/-- The end of a wait keeps an optimizer sound. -/
theorem expire (sound : o.Sound) (position : Nat) : (o.expire position).Sound := by
  rcases o.expire_cases position with same | ⟨job, rest, perm, expired⟩
  · rw [same]
    exact sound
  · rw [expired]
    exact sound.finish perm (cancel_ends _ job) (sound.takeOff perm).cancel

/-- A call keeps an optimizer sound. -/
theorem recordCall (sound : o.Sound) (index : Nat) (name : String) :
    (o.recordCall index name).Sound := by
  obtain ⟨taken, queue, pending⟩ := sound.consistent.recordCall_jobs index name
  refine ⟨sound.consistent.recordCall index name, ?_⟩
  rw [pending, queue, List.length_append, sound.pending]

/-- What is kept is not about the gate. -/
theorem withGate (sound : o.Sound) (gate : Gate) : ({ o with gate } : Optimizer).Sound :=
  ⟨sound.consistent.withGate gate, sound.pending⟩

/-- Switching on keeps an optimizer sound. -/
theorem enable (sound : o.Sound) : o.enable.Sound := by
  obtain ⟨queue, pending⟩ := o.enable_jobs
  refine ⟨?_, ?_⟩
  · rw [queue]
    exact sound.consistent.enable
  · rw [pending, queue]
    exact sound.pending

/-- Switching off keeps an optimizer sound. -/
theorem disable (sound : o.Sound) : o.disable.Sound := ⟨sound.consistent.disable, sound.pending⟩

/-- A shutdown keeps an optimizer sound. -/
theorem shutdown (sound : o.Sound) : o.shutdown.Sound := by
  obtain ⟨queue, pending⟩ := o.shutdown_jobs
  refine ⟨?_, ?_⟩
  · rw [queue]
    exact sound.consistent.shutdown
  · rw [pending, queue]
    exact sound.pending

/-- The marked names are those of the jobs in the queue. -/
theorem isInFlight_iff_mem (sound : o.Sound) (name : String) :
    o.isInFlight name = true ↔ name ∈ o.queue.map Job.name := by
  rw [isInFlight_iff, List.mem_map]
  simp only [sound.consistent.marked.mem_iff]

/-- A marked name is not settled. -/
theorem unsettled (sound : o.Sound) {name : String} (marked : o.isInFlight name = true) :
    name ∉ o.failed ∧ o.named? name = none := by
  obtain ⟨job, queued, rfl⟩ := List.mem_map.mp ((sound.isInFlight_iff_mem name).mp marked)
  exact ⟨sound.consistent.unfailed job queued, sound.consistent.unpublished job queued⟩

/-- How many jobs there are under a name. -/
theorem length_filter_name (sound : o.Sound) (name : String) :
    (o.queue.filter fun job => job.name = name).length =
      if name ∈ o.queue.map Job.name then 1 else 0 := by
  rw [← sound.consistent.distinct.count, List.count, List.countP_map,
    List.countP_eq_length_filter]
  congr 2

/-- A sound optimizer accounts for every name and every job. -/
theorem accounted (sound : o.Sound) : o.Accounted where
  exclusive := by
    intro name
    refine ⟨?_, ?_, ?_⟩
    · rintro ⟨marked, failed⟩
      exact (sound.unsettled marked).1 (hasFailed_iff.mp failed)
    · rintro ⟨marked, published⟩
      rw [(sound.unsettled marked).2] at published
      cases published
    · rintro ⟨failed, published⟩
      rw [sound.consistent.exclusive name (hasFailed_iff.mp failed)] at published
      cases published
  marked := by
    intro name
    rw [sound.isInFlight_iff_mem, sound.length_filter_name]
    split <;> simp_all
  single := by
    intro name
    rw [sound.length_filter_name]
    split <;> omega
  admitted := sound.consistent.admitted
  completed := sound.consistent.completed
  published := sound.consistent.publishedDistinct
  failed := sound.consistent.failures
  failures := sound.consistent.failedDistinct
  pending := sound.pending
  publishes := by
    intro job queued version
    have front := List.perm_cons_erase queued
    exact (sound.consistent.of_perm front).published_publish version

end Sound

section Extensions

variable (o : Optimizer)

/-- Taking a job on leaves versions and failures alone. -/
theorem submit_extends (job : Job) : o.Extends (o.submit job) := by
  unfold submit
  dsimp only
  split
  next => exact ⟨rfl, List.prefix_rfl, fun _ member => member⟩
  next => exact ⟨rfl, List.prefix_rfl, fun _ member => member⟩

/-- A call leaves versions and failures alone. -/
theorem recordCall_extends (index : Nat) (name : String) : o.Extends (o.recordCall index name) := by
  rcases o.recordCall_cases index name with same | counted | ⟨_, _, _, admitted⟩
  · rw [same]
    exact .refl o
  · rw [counted]
    exact ⟨rfl, List.prefix_rfl, fun _ member => member⟩
  · rw [admitted]
    exact { submit_extends { o with calls := o.calls.bump name } ⟨name, index⟩ with }

/-- A job that ends keeps what is published and what has failed, and nothing is taken on. -/
theorem process_extends (position : Nat) :
    o.Extends (o.process position) ∧ (o.process position).tally.admitted = o.tally.admitted := by
  rcases o.process_cases position with same | ⟨job, rest, _, worked⟩
  · rw [same]
    exact ⟨.refl o, rfl⟩
  · have ends := work_ends { o with queue := rest } job
    rw [worked]
    exact ⟨{ ends.toExtends with }, ends.admitted⟩

/-- The end of a wait leaves versions, failures and the number of jobs taken on alone. -/
theorem expire_extends (position : Nat) :
    o.Extends (o.expire position) ∧ (o.expire position).tally.admitted = o.tally.admitted := by
  rcases o.expire_cases position with same | ⟨job, rest, _, expired⟩
  · rw [same]
    exact ⟨.refl o, rfl⟩
  · have ends := cancel_ends { o with queue := rest } job
    rw [expired]
    exact ⟨{ ends.toExtends with }, ends.admitted⟩

/-- Switching on leaves versions, failures and the number of jobs taken on alone. -/
theorem enable_extends : o.Extends o.enable ∧ o.enable.tally.admitted = o.tally.admitted := by
  unfold enable
  split
  next => exact ⟨.refl o, rfl⟩
  next => exact ⟨⟨rfl, List.prefix_rfl, fun _ member => member⟩, rfl⟩

/-- A shutdown leaves versions, failures and the number of jobs taken on alone. -/
theorem shutdown_extends : o.Extends o.shutdown ∧ o.shutdown.tally.admitted = o.tally.admitted := by
  unfold shutdown
  split
  next => exact ⟨.refl o, rfl⟩
  next => exact ⟨⟨rfl, List.prefix_rfl, fun _ member => member⟩, rfl⟩

end Extensions

end Optimizer

namespace Supervised

/-- The atomic steps of an optimizer and its surroundings. -/
inductive Event where
  /-- A call of the program's function with this index is reported. -/
  | call (index : Nat)
  /-- A worker takes the job at this position of the queue and tries the gate. -/
  | work (position : Nat)
  /-- A worker gives up the job at this position of the queue after waiting at the gate. -/
  | expire (position : Nat)
  /-- The host takes a permit of the gate, if there is one to be had. -/
  | hold
  /-- The host hands a permit back, if it holds one. -/
  | handBack
  | enable
  | disable
  | shutdown
deriving DecidableEq, Repr

/-- Put a gate and its permits back. -/
def keep (s : Supervised) (t : Turnstile) : Supervised :=
  ⟨{ s.optimizer with gate := t.gate }, t.held⟩

/-- What a step leads to. -/
def next (s : Supervised) : Event → Supervised
  | .call index =>
    match s.optimizer.program.functions[index]? with
    | some f => { s with optimizer := s.optimizer.recordCall index f.name }
    | none => s
  | .work position => { s with optimizer := s.optimizer.process position }
  | .expire position => { s with optimizer := s.optimizer.expire position }
  | .hold => s.keep s.turnstile.acquire.2
  | .handBack => s.keep s.turnstile.release.2
  | .enable => { s with optimizer := s.optimizer.enable }
  | .disable => { s with optimizer := s.optimizer.disable }
  | .shutdown => { s with optimizer := s.optimizer.shutdown }

/-- What a sequence of steps leads to. -/
def after (s : Supervised) (events : List Event) : Supervised := events.foldl next s

/-- A new optimizer beside a host without permits. -/
def create (program : Program) (settings : Settings) : Supervised := ⟨.create program settings, 0⟩

/-- Every step keeps the invariant. -/
theorem next_sound {s : Supervised} (sound : s.optimizer.Sound) (event : Event) :
    (s.next event).optimizer.Sound := by
  cases event with
  | call index =>
    unfold next
    dsimp only
    split
    next f _ => exact sound.recordCall index f.name
    next => exact sound
  | work position => exact sound.process position
  | expire position => exact sound.expire position
  | hold => exact sound.withGate _
  | handBack => exact sound.withGate _
  | enable => exact sound.enable
  | disable => exact sound.disable
  | shutdown => exact sound.shutdown

/-- No sequence of events makes a sound optimizer unsound. -/
theorem after_sound {s : Supervised} (sound : s.optimizer.Sound) (events : List Event) :
    (s.after events).optimizer.Sound := by
  induction events generalizing s with
  | nil => exact sound
  | cons event events ih => exact ih (next_sound sound event)

/-- Every step keeps what is published and what has failed. -/
theorem next_extends (s : Supervised) (event : Event) :
    s.optimizer.Extends (s.next event).optimizer := by
  cases event with
  | call index =>
    unfold next
    dsimp only
    split
    next f _ => exact s.optimizer.recordCall_extends index f.name
    next => exact .refl _
  | work position => exact (s.optimizer.process_extends position).1
  | expire position => exact (s.optimizer.expire_extends position).1
  | hold => exact ⟨rfl, List.prefix_rfl, fun _ member => member⟩
  | handBack => exact ⟨rfl, List.prefix_rfl, fun _ member => member⟩
  | enable => exact s.optimizer.enable_extends.1
  | disable => exact ⟨rfl, List.prefix_rfl, fun _ member => member⟩
  | shutdown => exact s.optimizer.shutdown_extends.1

/-- No sequence of events takes back a version or a failure. -/
theorem after_extends (s : Supervised) (events : List Event) :
    s.optimizer.Extends (s.after events).optimizer := by
  induction events generalizing s with
  | nil => exact .refl _
  | cons event events ih => exact (s.next_extends event).trans (ih (s.next event))

/-- A step that takes a job on is a call of a cold function. It takes on one job, and the name is
marked from then on. -/
theorem next_admits {s : Supervised} (sound : s.optimizer.Sound) {event : Event}
    (more : (s.next event).optimizer.tally.admitted ≠ s.optimizer.tally.admitted) :
    ∃ index f, event = .call index ∧ s.optimizer.program.functions[index]? = some f ∧
      s.optimizer.stateOf f.name = .cold ∧
      (s.next event).optimizer.stateOf f.name = .inFlight ∧
      (s.next event).optimizer.tally.admitted = s.optimizer.tally.admitted + 1 := by
  cases event with
  | call index =>
    cases found : s.optimizer.program.functions[index]? with
    | none => exact absurd (by simp [next, found]) more
    | some f =>
      refine ⟨index, f, rfl, found, ?_⟩
      have reported : s.next (.call index) =
          { s with optimizer := s.optimizer.recordCall index f.name } := by
        simp [next, found]
      rw [reported] at more ⊢
      rcases s.optimizer.recordCall_cases index f.name with same | counted | admission
      · exact absurd (by rw [same]) more
      · exact absurd (by rw [counted]) more
      obtain ⟨enabled, unsettled, unmarked, admitted⟩ := admission
      have running : ({ s.optimizer with calls := s.optimizer.calls.bump f.name } :
          Optimizer).hasShutDown = false := sound.consistent.running enabled
      rw [Optimizer.isSettled, Bool.or_eq_false_iff, Option.isSome_eq_false_iff,
        Option.isNone_iff_eq_none] at unsettled
      obtain ⟨unpublished, unfailed⟩ := unsettled
      refine ⟨?_, ?_, ?_⟩
      · simp [Optimizer.stateOf, unpublished, unmarked, unfailed]
      · have still : (s.optimizer.recordCall index f.name).named? f.name = none := by
          rw [admitted, Optimizer.submit_eq running]
          exact unpublished
        have marked : (s.optimizer.recordCall index f.name).isInFlight f.name = true := by
          rw [admitted, Optimizer.submit_eq running]
          simp [Optimizer.isInFlight]
        simp [Optimizer.stateOf, still, marked]
      · simp only [admitted, Optimizer.submit_eq running]
  | work position => exact absurd (s.optimizer.process_extends position).2 more
  | expire position => exact absurd (s.optimizer.expire_extends position).2 more
  | hold => exact absurd rfl more
  | handBack => exact absurd rfl more
  | enable => exact absurd s.optimizer.enable_extends.2 more
  | disable => exact absurd rfl more
  | shutdown => exact absurd s.optimizer.shutdown_extends.2 more

/-- A settled name stays as it is, whatever happens. -/
theorem after_stateOf {s : Supervised} (sound : s.optimizer.Sound) {name : String}
    (settled : s.optimizer.stateOf name = .optimized ∨ s.optimizer.stateOf name = .failed)
    (events : List Event) :
    (s.after events).optimizer.stateOf name = s.optimizer.stateOf name ∧
      (s.after events).optimizer.isSettled name = true := by
  have extension := s.after_extends events
  have later := after_sound sound events
  cases published : s.optimizer.named? name with
  | some f =>
    have offered := extension.named? published
    simp [Optimizer.stateOf, Optimizer.isSettled, offered, published]
  | none =>
    -- Nothing is published under the name, so it has failed.
    have failed : s.optimizer.hasFailed name = true := by
      cases marked : s.optimizer.isInFlight name <;>
        cases noted : s.optimizer.hasFailed name <;>
        simp [Optimizer.stateOf, published, marked, noted] at settled
      rfl
    have failedLater : name ∈ (s.after events).optimizer.failed :=
      extension.failed name (Optimizer.hasFailed_iff.mp failed)
    have unpublished := later.consistent.exclusive name failedLater
    have unmarked : (s.after events).optimizer.isInFlight name = false := by
      rw [Bool.eq_false_iff]
      intro marked
      exact (later.unsettled marked).1 failedLater
    have unmarkedNow : s.optimizer.isInFlight name = false := by
      rw [Bool.eq_false_iff]
      intro marked
      exact (sound.unsettled marked).1 (Optimizer.hasFailed_iff.mp failed)
    have noted := Optimizer.hasFailed_iff.mpr failedLater
    simp [Optimizer.stateOf, Optimizer.isSettled, published, unpublished, unmarked, unmarkedNow,
      failed, noted]

/-- The life of every name, and the account of all jobs, in every state that any sequence of
steps leads to. A name whose function is settled stays so, and its calls have no effect; a job is
taken on only by a call of a cold function, whose name is then marked. -/
theorem lifecycle (program : Program) (settings : Settings) (events : List Event) :
    let s := (create program settings).after events
    s.optimizer.Accounted ∧
    (∀ name, s.optimizer.stateOf name = .optimized ∨ s.optimizer.stateOf name = .failed →
      ∀ more, (s.after more).optimizer.stateOf name = s.optimizer.stateOf name ∧
        ∀ index, (s.after more).optimizer.recordCall index name = (s.after more).optimizer) ∧
    ∀ event, (s.next event).optimizer.tally.admitted ≠ s.optimizer.tally.admitted →
      ∃ index f, event = .call index ∧ program.functions[index]? = some f ∧
        s.optimizer.stateOf f.name = .cold ∧
        (s.next event).optimizer.stateOf f.name = .inFlight ∧
        (s.next event).optimizer.tally.admitted = s.optimizer.tally.admitted + 1 := by
  intro s
  have sound : s.optimizer.Sound := after_sound (.create program settings) events
  have same : s.optimizer.program = program :=
    ((create program settings).after_extends events).program
  refine ⟨sound.accounted, ?_, ?_⟩
  · intro name settled more
    obtain ⟨state, still⟩ := after_stateOf sound settled more
    refine ⟨state, ?_⟩
    intro index
    simp [Optimizer.recordCall, still]
  · intro event more
    obtain ⟨index, f, called, found, rest⟩ := next_admits sound more
    rw [same] at found
    exact ⟨index, f, called, found, rest⟩

end Supervised

end HotPath
